import ColumnBridge.Text.Utf8
import Mathlib

/-!
# Reading one character

The decoder reads a character byte by byte and never looks back.  What it reads
in this way are exactly the encodings of characters: the first byte says how
many bytes are owed, each of those adds six bits, and the narrower range of the
second byte leaves out the code points that are no characters and those that
have a shorter encoding.

As none of the ranges is empty, whatever has been read can be completed.  The
decoder thus fails at the first byte with which no character goes on, and not
later.
-/

namespace ColumnBridge.Utf8

/-! ## Encodings -/

/-- The last bytes of the encoding of a code point, as many as asked for. -/
def lastBytes : Nat → Nat → List UInt8
  | 0, _ => []
  | count + 1, v =>
    UInt8.ofNat (0x80 + v / 64 ^ count % 64) :: lastBytes count v

theorem utf8EncodeChar_eq (c : Char) :
    String.utf8EncodeChar c =
      if c.toNat < 0x80 then [UInt8.ofNat c.toNat]
      else if c.toNat < 0x800 then
        UInt8.ofNat (0xC0 + c.toNat / 64) :: lastBytes 1 c.toNat
      else if c.toNat < 0x10000 then
        UInt8.ofNat (0xE0 + c.toNat / 64 ^ 2) :: lastBytes 2 c.toNat
      else UInt8.ofNat (0xF0 + c.toNat / 64 ^ 3) :: lastBytes 3 c.toNat := by
  have hvalid :
      c.toNat < 0xD800 ∨ 0xDFFF < c.toNat ∧ c.toNat < 0x110000 := c.valid
  have hval : c.val.toNat = c.toNat := rfl
  rw [String.utf8EncodeChar, hval]
  simp only [lastBytes, pow_zero, Nat.div_one]
  repeat' split
  all_goals
    simp only [List.cons.injEq, and_true, ← UInt8.toNat_inj, UInt8.toNat_ofNat',
      reduceCtorEq, and_false]
    try omega

theorem ByteRange.contains_iff {range : ByteRange} {b : UInt8} :
    range.contains b = true ↔
      range.low.toNat ≤ b.toNat ∧ b.toNat ≤ range.high.toNat := by
  simp only [ByteRange.contains, UInt8.le_iff_toNat_le, Bool.and_eq_true,
    decide_eq_true_eq]

namespace Opening

variable {o o' : Opening} {b : UInt8} {bytes rest : List UInt8}
  {range : ByteRange} {more : List ByteRange} {p n v m k : Nat}

/-! ## The bytes that are owed -/

theorem exists_of_push? (h : o.push? b = some o') :
    o'.length = o.length + 1 ∧ ∃ range, o.owed = range :: o'.owed := by
  rw [push?] at h
  split at h
  · cases h
  next range more howed =>
    split at h
    · cases h
      exact ⟨rfl, range, howed⟩
    · cases h

/-- Reading counts the bytes, and strikes off the ranges they lie in. -/
theorem length_and_owed_of_foldlM_push? (h : bytes.foldlM push? o = some o') :
    o'.length = o.length + bytes.length ∧ o'.owed <:+ o.owed := by
  induction bytes generalizing o with
  | nil =>
      cases h
      exact ⟨rfl, List.suffix_rfl⟩
  | cons b bytes ih =>
      obtain ⟨next, hnext, hbytes⟩ := Option.bind_eq_some_iff.mp h
      obtain ⟨hstep, range, howed⟩ := exists_of_push? hnext
      obtain ⟨hlength, hsuffix⟩ := ih hbytes
      rw [hlength, hstep, List.length_cons, howed]
      exact ⟨by omega, hsuffix.trans (List.suffix_cons range next.owed)⟩

theorem foldlM_push?_cons :
    bytes.foldlM push? ⟨p, n, range :: more⟩ = some ⟨v, m, []⟩ ↔
      ∃ b rest, bytes = b :: rest ∧ range.contains b = true ∧
        rest.foldlM push? ⟨p * 64 + b.toNat % 64, n + 1, more⟩ =
          some ⟨v, m, []⟩ := by
  cases bytes with
  | nil => simp
  | cons b rest => by_cases hb : range.contains b = true <;> simp [push?, hb]

/-- All that is owed can be read if no range is empty. -/
theorem exists_foldlM_push?
    (h : ∀ range ∈ o.owed, range.contains range.low = true) :
    ∃ (after : List UInt8) (v m : Nat),
      after.foldlM push? o = some ⟨v, m, []⟩ := by
  obtain ⟨p, n, owed⟩ := o
  induction owed generalizing p n with
  | nil => exact ⟨[], p, n, rfl⟩
  | cons range more ih =>
      rw [List.forall_mem_cons] at h
      obtain ⟨after, v, m, hafter⟩ :=
        ih (p * 64 + range.low.toNat % 64) (n + 1) h.2
      exact ⟨range.low :: after, v, m,
        foldlM_push?_cons.mpr ⟨_, _, rfl, h.1, hafter⟩⟩

/-- A byte in a range of continuing bytes holds the next six bits of a code
point. -/
theorem contains_and_eq_iff (hlow : 0x80 ≤ range.low.toNat)
    (hhigh : range.high.toNat < 0xC0) {w : Nat} :
    range.contains b = true ∧ w = p * 64 + b.toNat % 64 ↔
      w / 64 = p ∧ b = UInt8.ofNat (0x80 + w % 64) ∧
        range.low.toNat ≤ 0x80 + w % 64 ∧ 0x80 + w % 64 ≤ range.high.toNat := by
  rw [ByteRange.contains_iff, ← UInt8.toNat_inj, UInt8.toNat_ofNat']
  omega

/-- The bits that are owed are read from the last bytes of a code point, and
from no others. -/
theorem foldlM_push?_tails :
    bytes.foldlM push? ⟨p, n, List.replicate k tail⟩ = some ⟨v, m, []⟩ ↔
      v / 64 ^ k = p ∧ m = n + k ∧ bytes = lastBytes k v := by
  induction k generalizing p n bytes with
  | zero =>
      cases bytes with
      | nil => simp [lastBytes, eq_comm]
      | cons b rest => simp [lastBytes, push?]
  | succ k ih =>
      simp only [List.replicate_succ, foldlM_push?_cons, ih, lastBytes,
        pow_succ, ← Nat.div_div_eq_div_mul]
      constructor
      · rintro ⟨b, rest, rfl, hb, hv, rfl, rfl⟩
        obtain ⟨hp, rfl, -⟩ :=
          (contains_and_eq_iff (by decide) (by decide)).mp ⟨hb, hv⟩
        exact ⟨hp, by omega, rfl⟩
      · rintro ⟨hp, rfl, rfl⟩
        have hrange : tail.low.toNat ≤ 0x80 + v / 64 ^ k % 64 ∧
            0x80 + v / 64 ^ k % 64 ≤ tail.high.toNat := by
          simp only [tail, UInt8.toNat_ofNat]
          omega
        obtain ⟨hb, hv⟩ :=
          (contains_and_eq_iff (by decide) (by decide)).mpr ⟨hp, rfl, hrange⟩
        exact ⟨_, _, rfl, hb, hv, by omega, rfl⟩

/-! ## The first and the second byte -/

/-- The range of the second byte of a character.  Below it are overlong forms,
above it surrogates and what comes after the last code point. -/
def secondRange (b : UInt8) : ByteRange :=
  if b = 0xE0 then ⟨0xA0, 0xBF⟩
  else if b = 0xED then ⟨0x80, 0x9F⟩
  else if b = 0xF0 then ⟨0x90, 0xBF⟩
  else if b = 0xF4 then ⟨0x80, 0x8F⟩
  else tail

theorem secondRange_iff {x : Nat} :
    (secondRange b).low.toNat ≤ x ∧ x ≤ (secondRange b).high.toNat ↔
      0x80 ≤ x ∧ x ≤ 0xBF ∧ (b.toNat = 0xE0 → 0xA0 ≤ x) ∧
        (b.toNat = 0xED → x ≤ 0x9F) ∧
        (b.toNat = 0xF0 → 0x90 ≤ x) ∧ (b.toNat = 0xF4 → x ≤ 0x8F) := by
  simp only [secondRange, ← @UInt8.toNat_inj b]
  repeat' split
  all_goals
    simp only [tail, UInt8.toNat_ofNat] at *
    omega

/-- The first byte says how many bytes are owed, and in which range the second
of them lies. -/
theorem ofByte?_eq (b : UInt8) :
    ofByte? b =
      if b.toNat < 0x80 then some ⟨b.toNat, 1, []⟩
      else if b.toNat < 0xC2 then none
      else if b.toNat < 0xE0 then
        some ⟨b.toNat % 32, 1, secondRange b :: List.replicate 0 tail⟩
      else if b.toNat < 0xF0 then
        some ⟨b.toNat % 16, 1, secondRange b :: List.replicate 1 tail⟩
      else if b.toNat < 0xF5 then
        some ⟨b.toNat % 8, 1, secondRange b :: List.replicate 2 tail⟩
      else none := by
  revert b
  decide +kernel

theorem contains_low_of_ofByte? (h : ofByte? b = some o) :
    ∀ range ∈ o.owed, range.contains range.low = true := by
  have hall : ∀ b, ∀ o ∈ ofByte? b, ∀ range ∈ o.owed,
      range.contains range.low = true := by
    decide +kernel
  exact hall b o h

theorem foldlM_push?_second :
    rest.foldlM push? ⟨p, n, secondRange b :: List.replicate k tail⟩ =
      some ⟨v, m, []⟩ ↔
      v / 64 ^ (k + 1) = p ∧ m = n + (k + 1) ∧ rest = lastBytes (k + 1) v ∧
        (b.toNat = 0xE0 → 0xA0 ≤ 0x80 + v / 64 ^ k % 64) ∧
        (b.toNat = 0xED → 0x80 + v / 64 ^ k % 64 ≤ 0x9F) ∧
        (b.toNat = 0xF0 → 0x90 ≤ 0x80 + v / 64 ^ k % 64) ∧
        (b.toNat = 0xF4 → 0x80 + v / 64 ^ k % 64 ≤ 0x8F) := by
  have hbounds :
      0x80 ≤ (secondRange b).low.toNat ∧ (secondRange b).high.toNat < 0xC0 := by
    revert b
    decide +kernel
  simp only [foldlM_push?_cons, foldlM_push?_tails, lastBytes, pow_succ,
    ← Nat.div_div_eq_div_mul]
  constructor
  · rintro ⟨second, rest, rfl, hb, hv, rfl, rfl⟩
    obtain ⟨hp, rfl, hrange⟩ :=
      (contains_and_eq_iff hbounds.1 hbounds.2).mp ⟨hb, hv⟩
    exact ⟨hp, by omega, rfl, (secondRange_iff.mp hrange).2.2⟩
  · rintro ⟨hp, rfl, rfl, hrange⟩
    have hrange : (secondRange b).low.toNat ≤ 0x80 + v / 64 ^ k % 64 ∧
        0x80 + v / 64 ^ k % 64 ≤ (secondRange b).high.toNat :=
      secondRange_iff.mpr ⟨by omega, by omega, hrange⟩
    obtain ⟨hb, hv⟩ :=
      (contains_and_eq_iff hbounds.1 hbounds.2).mpr ⟨hp, rfl, hrange⟩
    exact ⟨_, _, rfl, hb, hv, by omega, rfl⟩

/-! ## Whole characters -/

/-- What the bytes begin, if a character can begin with them. -/
def ofBytes? : List UInt8 → Option Opening
  | [] => none
  | b :: rest => (ofByte? b).bind fun o => rest.foldlM push? o

/-- More bytes are read from where the bytes before them left off. -/
theorem ofBytes?_append (h : bytes ≠ []) (after : List UInt8) :
    ofBytes? (bytes ++ after) = (ofBytes? bytes).bind fun o =>
      after.foldlM push? o := by
  cases bytes with
  | nil => exact absurd rfl h
  | cons b rest =>
      simp only [List.cons_append, ofBytes?, List.foldlM_append,
        Option.bind_assoc]
      rfl

theorem length_of_ofBytes? (h : ofBytes? bytes = some o) :
    o.length = bytes.length := by
  cases bytes with
  | nil => cases h
  | cons b rest =>
      obtain ⟨first, hfirst, hrest⟩ := Option.bind_eq_some_iff.mp h
      have hone : ∀ b, ∀ o ∈ ofByte? b, o.length = 1 := by
        decide +kernel
      rw [(length_and_owed_of_foldlM_push? hrest).1, hone b first hfirst,
        List.length_cons, Nat.add_comm]

/-- The encoding of a character is read as its code point. -/
theorem ofBytes?_utf8EncodeChar (c : Char) :
    ofBytes? (String.utf8EncodeChar c) = some ⟨c.toNat, c.utf8Size, []⟩ := by
  have hvalid :
      c.toNat < 0xD800 ∨ 0xDFFF < c.toNat ∧ c.toNat < 0x110000 := c.valid
  rw [← String.length_utf8EncodeChar, utf8EncodeChar_eq]
  generalize c.toNat = v at hvalid
  split
  next h =>
    have hmod : v % 256 = v := by omega
    simp [ofBytes?, ofByte?_eq, hmod, h]
  split
  next =>
    simp only [ofBytes?, ofByte?_eq, UInt8.toNat_ofNat']
    rw [if_neg (by omega), if_neg (by omega), if_pos (by omega),
      Option.bind_some, foldlM_push?_second, UInt8.toNat_ofNat']
    exact ⟨by omega, rfl, rfl, by omega⟩
  split
  next =>
    simp only [ofBytes?, ofByte?_eq, UInt8.toNat_ofNat']
    rw [if_neg (by omega), if_neg (by omega), if_neg (by omega),
      if_pos (by omega), Option.bind_some, foldlM_push?_second,
      UInt8.toNat_ofNat']
    exact ⟨by omega, rfl, rfl, by omega⟩
  next =>
    simp only [ofBytes?, ofByte?_eq, UInt8.toNat_ofNat']
    rw [if_neg (by omega), if_neg (by omega), if_neg (by omega),
      if_neg (by omega), if_pos (by omega), Option.bind_some,
      foldlM_push?_second, UInt8.toNat_ofNat']
    exact ⟨by omega, rfl, rfl, by omega⟩

/-- Nothing is read to its end but the encoding of a character. -/
theorem utf8EncodeChar_of_ofBytes? (h : ofBytes? bytes = some ⟨v, m, []⟩) :
    String.utf8EncodeChar (Char.ofNat v) = bytes := by
  cases bytes with
  | nil => cases h
  | cons b rest =>
      rw [ofBytes?, ofByte?_eq] at h
      have htoNat (hvalid : v < 0xD800 ∨ 0xDFFF < v ∧ v < 0x110000) :
          (Char.ofNat v).toNat = v := by
        rw [Char.toNat_ofNat, if_pos hvalid]
      rw [utf8EncodeChar_eq]
      split at h
      next =>
        cases rest with
        | nil =>
            cases h
            rw [htoNat (by omega), if_pos (by omega), UInt8.ofNat_toNat]
        | cons => cases h
      split at h
      next => cases h
      split at h
      next =>
        obtain ⟨hv, -, rfl, hrange⟩ := foldlM_push?_second.mp h
        rw [htoNat (by omega), if_neg (by omega), if_pos (by omega),
          List.cons.injEq, ← UInt8.toNat_inj, UInt8.toNat_ofNat']
        exact ⟨by omega, rfl⟩
      split at h
      next =>
        obtain ⟨hv, -, rfl, hrange⟩ := foldlM_push?_second.mp h
        rw [htoNat (by omega), if_neg (by omega), if_neg (by omega),
          if_pos (by omega), List.cons.injEq, ← UInt8.toNat_inj,
          UInt8.toNat_ofNat']
        exact ⟨by omega, rfl⟩
      split at h
      next =>
        obtain ⟨hv, -, rfl, hrange⟩ := foldlM_push?_second.mp h
        rw [htoNat (by omega), if_neg (by omega), if_neg (by omega),
          if_neg (by omega), List.cons.injEq, ← UInt8.toNat_inj,
          UInt8.toNat_ofNat']
        exact ⟨by omega, rfl⟩
      · cases h

/-- Bytes are read as the beginning of a character exactly if some character
begins with them. -/
theorem isSome_ofBytes?_iff (h : bytes ≠ []) :
    (ofBytes? bytes).isSome ↔ ∃ c, bytes <+: String.utf8EncodeChar c := by
  constructor
  · intro hsome
    obtain ⟨o, ho⟩ := Option.isSome_iff_exists.mp hsome
    obtain ⟨after, v, m, hafter⟩ : ∃ (after : List UInt8) (v m : Nat),
        after.foldlM push? o = some ⟨v, m, []⟩ := by
      apply exists_foldlM_push?
      cases bytes with
      | nil => cases ho
      | cons b rest =>
          obtain ⟨first, hfirst, hrest⟩ := Option.bind_eq_some_iff.mp ho
          intro range hrange
          exact contains_low_of_ofByte? hfirst range
            ((length_and_owed_of_foldlM_push? hrest).2.subset hrange)
    have hwhole : ofBytes? (bytes ++ after) = some ⟨v, m, []⟩ := by
      rw [ofBytes?_append h, ho]
      exact hafter
    exact ⟨Char.ofNat v, after, (utf8EncodeChar_of_ofBytes? hwhole).symm⟩
  · rintro ⟨c, after, hafter⟩
    have hread := ofBytes?_utf8EncodeChar c
    rw [← hafter, ofBytes?_append h] at hread
    obtain ⟨o, ho, -⟩ := Option.bind_eq_some_iff.mp hread
    exact Option.isSome_of_eq_some ho

end Opening

/-- No character begins with another one. -/
theorem eq_of_utf8EncodeChar_isPrefix {c c' : Char}
    (h : String.utf8EncodeChar c <+: String.utf8EncodeChar c') : c = c' := by
  obtain ⟨after, hafter⟩ := h
  have hne : String.utf8EncodeChar c ≠ [] := by
    rw [← List.length_pos_iff, String.length_utf8EncodeChar]
    exact c.utf8Size_pos
  have hread := Opening.ofBytes?_utf8EncodeChar c'
  rw [← hafter, Opening.ofBytes?_append hne,
    Opening.ofBytes?_utf8EncodeChar] at hread
  cases after with
  | nil =>
      have hpayload := congrArg Opening.payload (Option.some.inj hread)
      exact Char.toNat_inj.mp hpayload
  | cons => cases hread

end ColumnBridge.Utf8
