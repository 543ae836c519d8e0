import SoftwareBus.Numerals

/-! Subject matching. A subject is any string, so it may hold code points that
have no UTF-8 encoding. -/
namespace SoftwareBus

abbrev CodePoint := Fin 0x110000
abbrev Str := List CodePoint

instance lawfulBEq_str : LawfulBEq Str := inferInstance

namespace SubjectMatcher

def wildcard : Str := [42]

/-- The "."-separated parts of a subject; a subject without dots is its own only part. -/
def split (subject : Str) : List Str := subject.splitOn 46

def hasWildcard (subject : Str) : Bool := decide (wildcard ∈ split subject)

def exactMatch (given target : Str) : Bool := decide (given = target)

/-- `StringPatternMatcher.match`: a `*` part of the target matches any part. -/
def patternMatch (given target : Str) : Bool :=
  decide ((split given).length = (split target).length) &&
    ((split given).zip (split target)).all fun p => decide (p.2 = wildcard ∨ p.1 = p.2)

theorem patternMatch_refl (s : Str) : patternMatch s s = true := by
  have hall : ∀ parts : List Str,
      (parts.zip parts).all (fun p => decide (p.2 = wildcard ∨ p.1 = p.2)) = true := by
    intro parts
    induction parts with
    | nil => rfl
    | cons p ps ih => rw [List.zip_cons_cons,List.all_cons,ih]; simp
  rw [patternMatch,hall]
  simp

/-- "a.b" matches "a.*" but not "a" or "*.c". -/
example : patternMatch [97,46,98] [97,46,42] = true ∧ patternMatch [97,46,98] [97] = false ∧
    patternMatch [97,46,98] [42,46,99] = false := by decide

end SubjectMatcher
end SoftwareBus
