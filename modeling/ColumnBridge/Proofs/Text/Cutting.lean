import ColumnBridge.Proofs.Text.Decoding
import ColumnBridge.Proofs.Text.Truncation

/-!
# Cutting the bytes of a text

The bytes of a text can be cut without being decoded.  Every byte of a character
but the first lies in the range of continuing bytes, so a place among the bytes
is judged by the one byte behind it.  A search that steps back from the limit
comes to the last such place; it cannot step back from the start, and it need
not, as nothing there continues a character.

What it finds is the longest prefix that fits.  There is only one, and that is
enough to tell what becomes of a text that is cut twice, or cut to a greater
number of bytes.
-/

namespace ColumnBridge

open String (utf8Len)

namespace Utf8

/-! ## Bytes that continue a character -/

theorem contains_tail_of_mem_lastBytes (count v : Nat) :
    ∀ b ∈ lastBytes count v, tail.contains b = true := by
  induction count with
  | zero => exact List.forall_mem_nil _
  | succ count ih =>
      rw [lastBytes, List.forall_mem_cons]
      refine ⟨?_, ih⟩
      rw [ByteRange.contains_iff, UInt8.toNat_ofNat']
      simp only [tail, UInt8.toNat_ofNat]
      omega

/-- The first byte of a character can be told from the others by itself. -/
theorem exists_utf8EncodeChar_eq_cons (c : Char) :
    ∃ first more, String.utf8EncodeChar c = first :: more ∧
      tail.contains first = false ∧
      ∀ b ∈ more, tail.contains b = true := by
  have hvalid :
      c.toNat < 0xD800 ∨ 0xDFFF < c.toNat ∧ c.toNat < 0x110000 := c.valid
  have hfirst : ∀ n < 256, n < 0x80 ∨ 0xC0 ≤ n →
      tail.contains (UInt8.ofNat n) = false := by
    intro n hn hrange
    rw [Bool.eq_false_iff, ne_eq, ByteRange.contains_iff, UInt8.toNat_ofNat']
    simp only [tail, UInt8.toNat_ofNat]
    omega
  rw [utf8EncodeChar_eq]
  split
  next =>
    exact ⟨_, [], rfl, hfirst _ (by omega) (by omega), List.forall_mem_nil _⟩
  split
  next =>
    exact ⟨_, _, rfl, hfirst _ (by omega) (by omega),
      contains_tail_of_mem_lastBytes 1 _⟩
  split
  next =>
    exact ⟨_, _, rfl, hfirst _ (by omega) (by omega),
      contains_tail_of_mem_lastBytes 2 _⟩
  next =>
    exact ⟨_, _, rfl, hfirst _ (by omega) (by omega),
      contains_tail_of_mem_lastBytes 3 _⟩

end Utf8

namespace Truncation

variable {text taken : List Char} {bytes : List UInt8} {place limit : Nat}

/-! ## Cutting bytes -/

/-- Whether a place among the bytes of a text is one between characters, by the
byte behind it. -/
def isGap (bytes : List UInt8) (place : Nat) : Bool :=
  place == 0 ||
    match bytes[place]? with
    | some b => !Utf8.tail.contains b
    | none => place == bytes.length

/-- Steps back from a place until it is one between characters.  There is no
step from the start. -/
def lastGap? (bytes : List UInt8) : Nat → Option Nat
  | 0 => if isGap bytes 0 then some 0 else none
  | n + 1 => if isGap bytes (n + 1) then some (n + 1) else lastGap? bytes n

/-- The bytes in front of a place, which has to be one between characters. -/
def front? (bytes : List UInt8) (place : Nat) : Option (List UInt8) :=
  if isGap bytes place then some (bytes.take place) else none

/-- The bytes of a text cut to a limit, if there is one and they exceed it. -/
def cutBytes? (limit : Option Nat) (bytes : List UInt8) : Option (List UInt8) :=
  match limit with
  | none => some bytes
  | some limit =>
    if limit < bytes.length then
      (lastGap? bytes limit).bind (front? bytes)
    else some bytes

/-- The bytes of characters. -/
def encode (text : List Char) : List UInt8 := text.flatMap String.utf8EncodeChar

theorem length_encode (text : List Char) :
    (encode text).length = utf8Len text := by
  induction text with
  | nil => rfl
  | cons c rest ih =>
      rw [encode, List.flatMap_cons, List.length_append,
        String.length_utf8EncodeChar, String.utf8Len_cons, Nat.add_comm]
      exact congrArg (· + c.utf8Size) ih

theorem contains_tail_of_head_encode {b : UInt8}
    (h : (encode text)[0]? = some b) : Utf8.tail.contains b = false := by
  cases text with
  | nil => cases h
  | cons c rest =>
      obtain ⟨first, more, hbytes, hfirst, -⟩ :=
        Utf8.exists_utf8EncodeChar_eq_cons c
      rw [encode, List.flatMap_cons, hbytes] at h
      cases h
      exact hfirst

/-- No place inside the first character is one between characters. -/
theorem isGap_encode_cons_of_lt {c : Char} (hpos : 0 < place)
    (hlt : place < c.utf8Size) : isGap (encode (c :: text)) place = false := by
  obtain ⟨first, more, hbytes, -, hmore⟩ := Utf8.exists_utf8EncodeChar_eq_cons c
  have hlength : more.length + 1 = c.utf8Size := by
    rw [← String.length_utf8EncodeChar, hbytes, List.length_cons]
  obtain ⟨n, rfl⟩ : ∃ n, place = n + 1 := ⟨place - 1, by omega⟩
  have hn : n < more.length := by omega
  have hbyte : (encode (c :: text))[n + 1]? = some more[n] := by
    rw [encode, List.flatMap_cons, hbytes, List.cons_append,
      List.getElem?_cons_succ, List.getElem?_append_left hn,
      List.getElem?_eq_getElem hn]
  have htail := hmore more[n] (List.getElem_mem hn)
  simp [isGap, hbyte, htail]

/-- The places behind the first character are those of the other characters. -/
theorem isGap_encode_cons_of_le {c : Char} (hle : c.utf8Size ≤ place) :
    isGap (encode (c :: text)) place =
      isGap (encode text) (place - c.utf8Size) := by
  obtain ⟨n, rfl⟩ : ∃ n, place = c.utf8Size + n :=
    ⟨place - c.utf8Size, by omega⟩
  have hsize := c.utf8Size_pos
  have hbyte : (encode (c :: text))[c.utf8Size + n]? = (encode text)[n]? := by
    rw [encode, List.flatMap_cons, List.getElem?_append_right (by simp),
      String.length_utf8EncodeChar, Nat.add_sub_cancel_left]
    rfl
  have hlength :
      (encode (c :: text)).length = c.utf8Size + (encode text).length := by
    rw [length_encode, length_encode, String.utf8Len_cons, Nat.add_comm]
  rw [Nat.add_sub_cancel_left, isGap, isGap, hbyte, hlength]
  cases n with
  | zero =>
      -- the place between the first character and the others is judged by the
      -- first of these
      cases hhead : (encode text)[0]? with
      | none =>
          have hempty : (encode text).length = 0 := by
            simpa using hhead
          simp [hempty]
      | some b => simp [contains_tail_of_head_encode hhead]
  | succ n =>
      have hpast : (c.utf8Size + (n + 1) == 0) = false :=
        beq_false_of_ne (by omega)
      have hend : (c.utf8Size + (n + 1) == c.utf8Size + (encode text).length) =
          (n + 1 == (encode text).length) := by
        rw [Bool.eq_iff_iff, beq_iff_eq, beq_iff_eq, Nat.add_left_cancel_iff]
      rw [hpast, hend]
      rfl

theorem isGap_encode : isGap (encode text) place = isBoundary text place := by
  rw [isBoundary]
  fun_induction takeBytes? place text with
  | case1 text => rfl
  | case2 n => rfl
  | case3 n c rest hfits ih =>
      rw [isGap_encode_cons_of_le hfits, ih, Option.isSome_map]
  | case4 n c rest hexceeds =>
      exact isGap_encode_cons_of_lt n.succ_pos (by omega)

theorem lastGap?_encode :
    lastGap? (encode text) limit = some (floorBoundary text limit) := by
  fun_induction floorBoundary text limit with
  | case1 => rfl
  | case2 n hboundary => rw [lastGap?, isGap_encode, if_pos hboundary]
  | case3 n hinside ih => rw [lastGap?, isGap_encode, if_neg hinside, ih]

theorem front?_encode (h : takeBytes? place text = some taken) :
    front? (encode text) place = some (encode taken) := by
  have hgap : isGap (encode text) place = true := by
    rw [isGap_encode, isBoundary, h]
    rfl
  obtain ⟨⟨more, rfl⟩, rfl⟩ := takeBytes?_eq_some_iff.mp h
  rw [front?, if_pos hgap, encode, List.flatMap_append, ← length_encode, encode,
    List.take_left]

theorem utf8Bytes_eq_encode (text : String) :
    utf8Bytes text = encode text.toList :=
  utf8Bytes_eq text

theorem length_utf8Bytes (text : String) :
    (utf8Bytes text).length = text.utf8ByteSize := by
  rw [utf8Bytes_eq_encode, length_encode, utf8Len_toList]

/-- The bytes of a text are cut like the text.  The search does not step back
from the start, and it ends at a place where the bytes may be cut. -/
theorem cutBytes?_utf8Bytes (limit : Option Nat) (text : String) :
    cutBytes? limit (utf8Bytes text) =
      some (utf8Bytes (truncate limit text)) := by
  cases limit with
  | none => rfl
  | some limit =>
      rw [cutBytes?, truncate, length_utf8Bytes]
      split
      next hexceeds =>
        obtain ⟨cut, hcut⟩ : ∃ cut,
            takeBytes? (floorBoundary text.toList limit) text.toList =
              some cut :=
          Option.isSome_iff_exists.mp isBoundary_floorBoundary
        rw [utf8Bytes_eq_encode, lastGap?_encode, Option.bind_some,
          front?_encode hcut, hcut, Option.getD_some, utf8Bytes_eq_encode,
          String.toList_ofList]
      next hfits => rfl

/-! ## What becomes of a cut text -/

namespace IsCut

variable {limit other : Nat} {text cut cut' : String}

theorem utf8ByteSize_le_text (h : IsCut limit text cut) :
    cut.utf8ByteSize ≤ text.utf8ByteSize := by
  obtain ⟨more, hmore⟩ := h.isPrefix
  rw [← utf8Len_toList, ← utf8Len_toList, ← hmore, String.utf8Len_append]
  exact Nat.le_add_right _ _

/-- A cut to fewer bytes is a prefix of a cut to more bytes. -/
theorem isPrefix_of_le (h : IsCut limit text cut) (h' : IsCut other text cut')
    (hle : limit ≤ other) : cut.toList <+: cut'.toList := by
  apply h'.longest _ h.isPrefix
  rw [utf8Len_toList]
  exact h.utf8ByteSize_le.trans hle

/-- There is only one cut to a number of bytes. -/
theorem unique (h : IsCut limit text cut) (h' : IsCut limit text cut') :
    cut = cut' := by
  apply String.toList_inj.mp
  exact (h.isPrefix_of_le h' le_rfl).eq_of_length_le
    (h'.isPrefix_of_le h le_rfl).length_le

/-- A cut of a cut is a cut of the whole text. -/
theorem trans (h : IsCut limit text cut) (h' : IsCut other cut cut') :
    IsCut (min limit other) text cut' where
  isPrefix := h'.isPrefix.trans h.isPrefix
  utf8ByteSize_le :=
    le_min (h'.utf8ByteSize_le_text.trans h.utf8ByteSize_le) h'.utf8ByteSize_le
  longest taken htaken hle :=
    h'.longest taken (h.longest taken htaken (hle.trans
      (min_le_left limit other))) (hle.trans (min_le_right limit other))

/-- If a character is left, it would not have fitted; and no character has more
than four bytes. -/
theorem le_add_three (h : IsCut limit text cut)
    (hexceeds : limit < text.utf8ByteSize) : limit ≤ cut.utf8ByteSize + 3 := by
  obtain ⟨more, hmore⟩ := h.isPrefix
  cases more with
  | nil =>
      rw [List.append_nil, String.toList_inj] at hmore
      rw [← hmore] at hexceeds
      omega
  | cons c rest =>
      have hnext : cut.toList ++ [c] <+: text.toList :=
        ⟨rest, by rw [List.append_assoc, List.singleton_append, hmore]⟩
      have hlength :
          utf8Len (cut.toList ++ [c]) = cut.utf8ByteSize + c.utf8Size := by
        rw [String.utf8Len_append, utf8Len_toList, String.utf8Len_cons,
          String.utf8Len_nil, Nat.zero_add]
      have htooLong : ¬ cut.utf8ByteSize + c.utf8Size ≤ limit := by
        intro hle
        have hwithin := (h.longest _ hnext (hlength.trans_le hle)).length_le
        rw [List.length_append, List.length_singleton] at hwithin
        omega
      have hfour := c.utf8Size_le_four
      omega

end IsCut

theorem truncate_eq_self_iff {text : String} :
    truncate (some limit) text = text ↔ text.utf8ByteSize ≤ limit := by
  constructor
  · intro hself
    have hle := (isCut_truncate limit text).utf8ByteSize_le
    rwa [hself] at hle
  · exact truncate_eq_self

theorem truncate_truncate (first second : Nat) (text : String) :
    truncate (some second) (truncate (some first) text) =
      truncate (some (min first second)) text :=
  ((isCut_truncate first text).trans (isCut_truncate second _)).unique
    (isCut_truncate _ text)

/-- A text is cut to the longest prefix of whole characters that the limit
leaves room for; it is left alone exactly if it fits, and at most three bytes of
the limit are left over if it does not.  Its bytes, of which only single ones
are looked at, are cut in the same way, and this never fails.  Of two limits the
lower one decides, and the cut to it is a prefix of the other one. -/
theorem truncate_is_longest_fitting_prefix (text : String) :
    truncate none text = text ∧
    (∀ limit : Option Nat,
      cutBytes? limit (utf8Bytes text) =
        some (utf8Bytes (truncate limit text))) ∧
    (∀ limit : Nat,
      IsCut limit text (truncate (some limit) text) ∧
      (truncate (some limit) text = text ↔ text.utf8ByteSize ≤ limit) ∧
      (limit < text.utf8ByteSize →
        limit ≤ (truncate (some limit) text).utf8ByteSize + 3) ∧
      truncate (some limit) (truncate (some limit) text) =
        truncate (some limit) text) ∧
    ∀ first second : Nat,
      truncate (some second) (truncate (some first) text) =
        truncate (some (min first second)) text ∧
      (first ≤ second →
        (truncate (some first) text).toList <+:
          (truncate (some second) text).toList) := by
  refine ⟨rfl, fun limit => cutBytes?_utf8Bytes limit text, ?_, ?_⟩
  · intro limit
    have hcut := isCut_truncate limit text
    refine ⟨hcut, truncate_eq_self_iff, hcut.le_add_three, ?_⟩
    rw [truncate_truncate, min_self]
  · intro first second
    refine ⟨truncate_truncate first second text, ?_⟩
    exact (isCut_truncate first text).isPrefix_of_le
      (isCut_truncate second text)

/-- Characters of one, two, three and four bytes, cut one byte short of the end
and in the middle. -/
theorem truncate_is_longest_fitting_prefix_allWidths :
    9 < "aé€😀".utf8ByteSize ∧ truncate (some 9) "aé€😀" = "aé€" ∧
      9 ≤ "aé€".utf8ByteSize + 3 ∧
    5 ≤ 9 ∧ truncate (some 5) "aé€😀" = "aé" ∧ "aé".toList <+: "aé€".toList := by
  obtain ⟨-, -, hlimit, hlimits⟩ := truncate_is_longest_fitting_prefix "aé€😀"
  have hfive : truncate (some 5) "aé€😀" = "aé" := by decide
  have hnine : truncate (some 9) "aé€😀" = "aé€" := by decide
  have hexceeds : 9 < "aé€😀".utf8ByteSize := by decide
  have hleft := (hlimit 9).2.2.1 hexceeds
  have hprefix := (hlimits 5 9).2 (by decide)
  rw [hnine] at hleft
  rw [hfive, hnine] at hprefix
  exact ⟨hexceeds, hnine, hleft, by decide, hfive, hprefix⟩

end Truncation
end ColumnBridge
