import SoftwareBus.SubjectMatcher

/-! The subjects that requests and replies are published to. -/
namespace SoftwareBus

/-- The length of a code point in UTF-8; a surrogate has no encoding. -/
def CodePoint.utf8Length (c : CodePoint) : Option ℕ :=
  if c.val < 0x80 then some 1
  else if c.val < 0x800 then some 2
  else if 0xD800 ≤ c.val ∧ c.val < 0xE000 then none
  else if c.val < 0x10000 then some 3
  else some 4

/-- `len(subject.encode("utf-8"))` -/
def utf8Length (s : Str) : Option ℕ := (s.mapM CodePoint.utf8Length).map List.sum

def maxSubjectLength : ℕ := 2^16-1

def requestPrefix : Str := [95,114,101,113,117,101,115,116]

def replyPrefix : Str := [95,114,101,112,108,121]

def derivedRequestSubject (requestSubject : Str) : Str := requestPrefix++46::requestSubject

def derivedReplySubject (requestSubject uniqueId : Str) : Str :=
  replyPrefix++46::(requestSubject++46::uniqueId)

/-- `_check_request_subject` raises no error. -/
def checkRequestSubject (requestSubject longestDerived : Str) : Bool :=
  !SubjectMatcher.hasWildcard requestSubject &&
    match utf8Length longestDerived with
    | some n => decide (n ≤ maxSubjectLength)
    | none => false

end SoftwareBus
