import Mathlib.Data.List.Basic
import ReplicatedLog.Text.Utf8

namespace ReplicatedLog.Utf8

theorem decode?_encode (text : String) : decode? (encode text) = some text := by
  have hbytes : (⟨text.toUTF8.data.toList.toArray⟩ : ByteArray) = text.toByteArray := by simp
  unfold decode? encode String.fromUTF8?
  rw [hbytes, dif_pos text.isValidUTF8]
  rfl

theorem encode_of_decode? {bytes : Bytes} {text : String}
    (hdecode : decode? bytes = some text) : encode text = bytes := by
  unfold decode? String.fromUTF8? at hdecode
  split at hdecode
  · obtain rfl := Option.some.inj hdecode
    rfl
  · cases hdecode

theorem encode_inj {text other : String} :
    encode text = encode other ↔ text = other := by
  constructor
  · intro heq
    have hsame := decode?_encode text
    rw [heq, decode?_encode] at hsame
    exact (Option.some.inj hsame).symm
  · exact congrArg encode

theorem length_encode (text : String) : (encode text).length = text.utf8ByteSize := by
  simp [encode]

end ReplicatedLog.Utf8
