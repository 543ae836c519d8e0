import Mathlib.Algebra.GroupWithZero.Nat
import Mathlib.Data.Fin.Basic

/-! The finite types that have numerals here: bytes, code points, and the small types of runs on
fixed inputs. -/
namespace SoftwareBus

instance neZero_one : NeZero 1 := ⟨by decide⟩
instance neZero_two : NeZero 2 := ⟨by decide⟩
instance neZero_three : NeZero 3 := ⟨by decide⟩
instance neZero_byte : NeZero 256 := ⟨by decide⟩
instance neZero_codePoint : NeZero 0x110000 := ⟨by decide⟩

end SoftwareBus
