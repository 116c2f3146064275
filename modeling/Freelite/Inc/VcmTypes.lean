import Freelite.Lib.Layout

/-!
# The message exchanged with the virtual cluster manager

`inc/vcm_types.hpp`: requests and replies have one type, a function code and an
id.  A reply is the request with its id replaced, so both fit one buffer; on the
wire the message is the eight bytes of the structure.
-/

namespace Freelite

open Lib

/-- The function code of a request for the nid behind a vid. -/
def vidNid : Int32 := 0

/-- The function code of a request for a new vid for a nid. -/
def nidVid : Int32 := 1

/-- `struct vcm_msg`. -/
@[ext]
structure VcmMsg where
  funcCode : Int32
  id : Int32
deriving DecidableEq

namespace VcmMsg

/-- The layout of the structure: two `int`s, without padding. -/
def codec : Codec VcmMsg where
  width := 8
  enc m := Codec.int32.enc m.funcCode ++ Codec.int32.enc m.id
  dec l := ⟨Codec.int32.dec (l.take 4), Codec.int32.dec (l.drop 4)⟩
  length_enc m := by
    rw [List.length_append, Codec.int32.length_enc, Codec.int32.length_enc]
    rfl
  dec_enc m := by
    have hlen : (Codec.int32.enc m.funcCode).length = 4 := Codec.int32.length_enc m.funcCode
    rw [List.take_left' hlen, List.drop_left' hlen, Codec.int32.dec_enc, Codec.int32.dec_enc]

/-- Every run of eight bytes is the image of a message. -/
theorem codec_enc_dec {l : List UInt8} (h : l.length = 8) : codec.enc (codec.dec l) = l := by
  change Codec.int32.enc (Codec.int32.dec (l.take 4)) ++
    Codec.int32.enc (Codec.int32.dec (l.drop 4)) = l
  rw [Codec.int32_enc_dec (by simp [h]), Codec.int32_enc_dec (by simp [h]), List.take_append_drop]

end VcmMsg

end Freelite
