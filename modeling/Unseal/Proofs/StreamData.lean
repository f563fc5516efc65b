import Unseal.Proofs.Wrapping.Extraction

/-!
# Stream data

Record data is read exactly if it is the base64 of the UTF-8 of a text, in the standard alphabet
and with its padding, so no two data read as the same text. Whatever else is refused.
-/

set_option autoImplicit false

namespace Unseal

theorem decodeData_ok_iff (data t : String) : decodeData data = .ok t ↔ data = base64Text t := by
  constructor
  · intro h
    unfold decodeData at h
    split at h
    next => cases h
    next bytes hbytes =>
      split at h
      next => cases h
      next text htext =>
        cases h
        apply Utf8.encode_injective
        rw [encode_base64Text, ← Utf8.decode_ok_iff.mp htext, ← Base64.decode_ok_iff.mp hbytes]
  · rintro rfl
    exact decodeData_base64Text t

/-- Padding that is missing is not made up for. -/
example : decodeData "w6k" = .error (.base64 .padding) := by decide +kernel

end Unseal
