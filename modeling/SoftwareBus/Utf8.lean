import SoftwareBus.Bytes
import SoftwareBus.SubjectMatcher

/-! UTF-8, as a strict codec has it: a surrogate has no encoding, and a byte string is decoded
only if it is the encoding of the result. -/
namespace SoftwareBus
namespace Utf8

/-- The encoding of a code point, as `str.encode("utf-8")` writes it. -/
def encodeChar (c : CodePoint) : Option Bytes :=
  if c.val < 0x80 then some [Fin.ofNat 256 c.val]
  else if c.val < 0x800 then
    some [Fin.ofNat 256 (0xC0+c.val/0x40),Fin.ofNat 256 (0x80+c.val%0x40)]
  else if 0xD800 ≤ c.val ∧ c.val < 0xE000 then none
  else if c.val < 0x10000 then
    some [Fin.ofNat 256 (0xE0+c.val/0x1000),Fin.ofNat 256 (0x80+c.val/0x40%0x40),
      Fin.ofNat 256 (0x80+c.val%0x40)]
  else
    some [Fin.ofNat 256 (0xF0+c.val/0x40000),Fin.ofNat 256 (0x80+c.val/0x1000%0x40),
      Fin.ofNat 256 (0x80+c.val/0x40%0x40),Fin.ofNat 256 (0x80+c.val%0x40)]

/-- `str.encode("utf-8")`; none if it raises `UnicodeEncodeError`. -/
def encode : Str → Option Bytes
  | [] => some []
  | c::s => (encodeChar c).bind fun bs => (encode s).map (bs++·)

def isTail (b : Byte) : Bool := decide (0x80 ≤ b.val ∧ b.val < 0xC0)

/-- The first code point of a byte string and what follows it. The second byte is bounded more
closely where the encoding would be too long, a surrogate or too large. -/
def decodeChar : Bytes → Option (CodePoint × Bytes)
  | [] => none
  | a::bs =>
    if a.val < 0x80 then some (Fin.ofNat _ a.val,bs)
    else if a.val < 0xC2 then none
    else if a.val < 0xE0 then
      match bs with
      | b::bs =>
        if isTail b then some (Fin.ofNat _ ((a.val-0xC0)*0x40+(b.val-0x80)),bs) else none
      | _ => none
    else if a.val < 0xF0 then
      match bs with
      | b::c::bs =>
        if (isTail b && isTail c) = true ∧ (a.val = 0xE0 → 0xA0 ≤ b.val) ∧
            (a.val = 0xED → b.val < 0xA0) then
          some (Fin.ofNat _ ((a.val-0xE0)*0x1000+(b.val-0x80)*0x40+(c.val-0x80)),bs)
        else none
      | _ => none
    else if a.val < 0xF5 then
      match bs with
      | b::c::d::bs =>
        if (isTail b && isTail c && isTail d) = true ∧ (a.val = 0xF0 → 0x90 ≤ b.val) ∧
            (a.val = 0xF4 → b.val < 0x90) then
          some (Fin.ofNat _ ((a.val-0xF0)*0x40000+(b.val-0x80)*0x1000+(c.val-0x80)*0x40+
            (d.val-0x80)),bs)
        else none
      | _ => none
    else none

theorem byte_eq {n : ℕ} {b : Byte} (h : n = b.val) : Fin.ofNat 256 n = b := by
  subst h
  exact Fin.ext (Nat.mod_eq_of_lt b.isLt)

theorem codePoint_eq {n : ℕ} {c : CodePoint} (h : n = c.val) : Fin.ofNat 0x110000 n = c := by
  subst h
  exact Fin.ext (Nat.mod_eq_of_lt c.isLt)

theorem byte_val {n : ℕ} (h : n < 256) : (Fin.ofNat 256 n : Byte).val = n := Nat.mod_eq_of_lt h

theorem codePoint_val {n : ℕ} (h : n < 0x110000) : (Fin.ofNat 0x110000 n : CodePoint).val = n :=
  Nat.mod_eq_of_lt h

theorem isTail_iff {b : Byte} : isTail b = true ↔ 0x80 ≤ b.val ∧ b.val < 0xC0 := by
  simp [isTail]

theorem encodeChar_ne_nil {c : CodePoint} {bs : Bytes} (h : encodeChar c = some bs) :
    bs ≠ [] := by
  unfold encodeChar at h
  split_ifs at h <;> obtain rfl := Option.some.inj h <;> simp

theorem encodeChar_of_decodeChar {bs rest : Bytes} {c : CodePoint}
    (h : decodeChar bs = some (c,rest)) : ∃ e, encodeChar c = some e ∧ bs = e++rest := by
  cases bs with
  | nil => cases h
  | cons a bs =>
    simp only [decodeChar] at h
    split_ifs at h with h1 h2 h3 h4 h5
    · obtain ⟨rfl,rfl⟩ := Prod.mk.inj (Option.some.inj h)
      refine ⟨[a],?_,rfl⟩
      have hv := codePoint_val (n := a.val) (by omega)
      rw [encodeChar,hv,if_pos h1,byte_eq rfl]
    · cases bs with
      | nil => cases h
      | cons b bs =>
        simp only [Option.ite_none_right_eq_some,isTail_iff] at h
        obtain ⟨hb,h⟩ := h
        obtain ⟨rfl,rfl⟩ := Prod.mk.inj (Option.some.inj h)
        refine ⟨[a,b],?_,rfl⟩
        have hv := codePoint_val (n := (a.val-0xC0)*0x40+(b.val-0x80)) (by omega)
        rw [encodeChar,hv,if_neg (by omega),if_pos (by omega),byte_eq (b := a) (by omega),
          byte_eq (b := b) (by omega)]
    · match bs with
      | [] => cases h
      | [_] => cases h
      | b::c::bs =>
        simp only [Option.ite_none_right_eq_some,Bool.and_eq_true,isTail_iff] at h
        obtain ⟨⟨⟨hb,hc⟩,hlow,hhigh⟩,h⟩ := h
        obtain ⟨rfl,rfl⟩ := Prod.mk.inj (Option.some.inj h)
        refine ⟨[a,b,c],?_,rfl⟩
        have hv := codePoint_val
          (n := (a.val-0xE0)*0x1000+(b.val-0x80)*0x40+(c.val-0x80)) (by omega)
        rw [encodeChar,hv,if_neg (by omega),if_neg (by omega),if_neg (by omega),
          if_pos (by omega),byte_eq (b := a) (by omega),byte_eq (b := b) (by omega),
          byte_eq (b := c) (by omega)]
    · match bs with
      | [] => cases h
      | [_] => cases h
      | [_,_] => cases h
      | b::c::d::bs =>
        simp only [Option.ite_none_right_eq_some,Bool.and_eq_true,isTail_iff] at h
        obtain ⟨⟨⟨⟨hb,hc⟩,hd⟩,hlow,hhigh⟩,h⟩ := h
        obtain ⟨rfl,rfl⟩ := Prod.mk.inj (Option.some.inj h)
        refine ⟨[a,b,c,d],?_,rfl⟩
        have hv := codePoint_val (n := (a.val-0xF0)*0x40000+(b.val-0x80)*0x1000+
          (c.val-0x80)*0x40+(d.val-0x80)) (by omega)
        rw [encodeChar,hv,if_neg (by omega),if_neg (by omega),if_neg (by omega),
          if_neg (by omega),byte_eq (b := a) (by omega),byte_eq (b := b) (by omega),
          byte_eq (b := c) (by omega),byte_eq (b := d) (by omega)]

theorem decodeChar_of_encodeChar {c : CodePoint} {e : Bytes} (h : encodeChar c = some e)
    (rest : Bytes) : decodeChar (e++rest) = some (c,rest) := by
  have hc := c.isLt
  unfold encodeChar at h
  split_ifs at h with h1 h2 h3 h4
  · obtain rfl := Option.some.inj h
    have ha := byte_val (n := c.val) (by omega)
    simp only [decodeChar,List.cons_append,List.nil_append,ha]
    rw [if_pos h1,codePoint_eq rfl]
  · obtain rfl := Option.some.inj h
    have ha := byte_val (n := 0xC0+c.val/0x40) (by omega)
    have hb := byte_val (n := 0x80+c.val%0x40) (by omega)
    simp only [decodeChar,List.cons_append,List.nil_append,ha,isTail_iff,hb]
    rw [if_neg (by omega),if_neg (by omega),if_pos (by omega),if_pos (by omega),
      codePoint_eq (c := c) (by omega)]
  · obtain rfl := Option.some.inj h
    have ha := byte_val (n := 0xE0+c.val/0x1000) (by omega)
    have hb := byte_val (n := 0x80+c.val/0x40%0x40) (by omega)
    have hc := byte_val (n := 0x80+c.val%0x40) (by omega)
    simp only [decodeChar,List.cons_append,List.nil_append,ha,Bool.and_eq_true,isTail_iff,hb,hc]
    rw [if_neg (by omega),if_neg (by omega),if_neg (by omega),if_pos (by omega),
      if_pos (by omega),codePoint_eq (c := c) (by omega)]
  · obtain rfl := Option.some.inj h
    have ha := byte_val (n := 0xF0+c.val/0x40000) (by omega)
    have hb := byte_val (n := 0x80+c.val/0x1000%0x40) (by omega)
    have hc := byte_val (n := 0x80+c.val/0x40%0x40) (by omega)
    have hd := byte_val (n := 0x80+c.val%0x40) (by omega)
    simp only [decodeChar,List.cons_append,List.nil_append,ha,Bool.and_eq_true,isTail_iff,hb,hc,
      hd]
    rw [if_neg (by omega),if_neg (by omega),if_neg (by omega),if_neg (by omega),
      if_pos (by omega),if_pos (by omega),codePoint_eq (c := c) (by omega)]

theorem decodeChar_length {bs rest : Bytes} {c : CodePoint} (h : decodeChar bs = some (c,rest)) :
    rest.length < bs.length := by
  obtain ⟨e,he,rfl⟩ := encodeChar_of_decodeChar h
  have hpos := List.length_pos_iff.mpr (encodeChar_ne_nil he)
  rw [List.length_append]
  omega

/-- `bytes.decode("utf-8")`; none if it raises `UnicodeDecodeError`. -/
def decode (bs : Bytes) : Option Str :=
  if bs = [] then some []
  else
    match _h : decodeChar bs with
    | none => none
    | some (c,rest) => (decode rest).map (c::·)
termination_by bs.length
decreasing_by exact decodeChar_length _h

theorem decode_of_encode {s : Str} {bs : Bytes} (h : encode s = some bs) :
    decode bs = some s := by
  induction s generalizing bs with
  | nil =>
    obtain rfl := Option.some.inj h
    rw [decode,if_pos rfl]
  | cons c s ih =>
    obtain ⟨e,he,h⟩ := Option.bind_eq_some_iff.mp h
    obtain ⟨es,hes,rfl⟩ := Option.map_eq_some_iff.mp h
    have hchar := decodeChar_of_encodeChar he es
    rw [decode,if_neg (by simp [encodeChar_ne_nil he])]
    split
    · rename_i hnone
      rw [hchar] at hnone
      cases hnone
    · rename_i d rest hsome
      obtain ⟨rfl,rfl⟩ := Prod.mk.inj (Option.some.inj (hchar.symm.trans hsome))
      rw [ih hes]
      rfl

theorem encode_of_decode {s : Str} {bs : Bytes} (h : decode bs = some s) :
    encode s = some bs := by
  induction bs using decode.induct generalizing s with
  | case1 =>
    rw [decode,if_pos rfl] at h
    obtain rfl := Option.some.inj h
    rfl
  | case2 bs hne hnone =>
    rw [decode,if_neg hne] at h
    split at h
    · cases h
    · rename_i hsome
      rw [hnone] at hsome
      cases hsome
  | case3 bs hne c rest hsome ih =>
    rw [decode,if_neg hne] at h
    split at h
    · cases h
    · rename_i d rest' hsome'
      obtain ⟨rfl,rfl⟩ := Prod.mk.inj (Option.some.inj (hsome.symm.trans hsome'))
      obtain ⟨s,hs,rfl⟩ := Option.map_eq_some_iff.mp h
      obtain ⟨e,he,rfl⟩ := encodeChar_of_decodeChar hsome
      rw [encode,he,Option.bind_some,ih hs]
      rfl

end Utf8
end SoftwareBus
