import Mlxcel.Lib.Delimited

/-!
# Strings as byte fields

The bytes of a string, of a decimal number and of a hexadecimal rendering, with the facts that
make them fields of a byte string: `utf8` is injective, is undone by `ofUtf8?` and distributes over
concatenation, an ASCII text has one byte a character, decimal digits never contain another symbol,
and two hexadecimal digits are a fixed-width rendering of a byte.
-/

namespace Text

open List Delimited

/-- The bytes of a string. -/
def utf8 (s : String) : List UInt8 := s.toByteArray.data.toList

@[simp] lemma utf8_append (s t : String) : utf8 (s ++ t) = utf8 s ++ utf8 t := by
  simp [utf8]

lemma utf8_injective : Function.Injective utf8 := by
  intro s t h
  rw [← String.toByteArray_inj]
  exact ByteArray.ext (Array.toList_inj.mp h)

/-- The string that a byte string encodes, if it is one. -/
def ofUtf8? (bytes : List UInt8) : Option String := String.fromUTF8? ⟨bytes.toArray⟩

@[simp] lemma ofUtf8?_utf8 (s : String) : ofUtf8? (utf8 s) = some s := by
  have h : (⟨(utf8 s).toArray⟩ : ByteArray) = s.toByteArray := by simp [utf8]
  rw [ofUtf8?, h, String.fromUTF8?, dif_pos s.isValidUTF8]
  rfl

lemma utf8_of_ofUtf8? {bytes : List UInt8} {s : String} (h : ofUtf8? bytes = some s) :
    utf8 s = bytes := by
  rw [ofUtf8?, String.fromUTF8?] at h
  split_ifs at h with hvalid
  rw [← Option.some.inj h]
  rfl

lemma utf8_ofList (l : List Char) : utf8 (String.ofList l) = l.flatMap String.utf8EncodeChar := by
  rw [utf8, String.toByteArray_ofList, List.utf8Encode]
  simp

lemma utf8EncodeChar_ascii {c : Char} (hc : c.val.toNat ≤ 127) :
    String.utf8EncodeChar c = [UInt8.ofNat c.val.toNat] := by
  simp only [String.utf8EncodeChar, hc, if_true]

lemma utf8_ofList_ascii {l : List Char} (hl : ∀ c ∈ l, c.val.toNat ≤ 127) :
    utf8 (String.ofList l) = l.map fun c => UInt8.ofNat c.val.toNat := by
  rw [utf8_ofList]
  induction l with
  | nil => rfl
  | cons c l ih =>
    rw [flatMap_cons, utf8EncodeChar_ascii (hl c (by simp)),
      ih (fun d hd => hl d (by simp [hd]))]
    rfl

/-! ## Decimal numbers -/

/-- The bytes of the decimal rendering of `n`. -/
def decimal (n : ℕ) : List UInt8 := utf8 (toString n)

lemma isDigit_val {c : Char} (hc : c.isDigit = true) : 48 ≤ c.val.toNat ∧ c.val.toNat ≤ 57 := by
  simp only [Char.isDigit, Bool.and_eq_true, decide_eq_true_eq] at hc
  exact ⟨UInt32.le_iff_toNat_le.mp hc.1, UInt32.le_iff_toNat_le.mp hc.2⟩

lemma decimal_eq (n : ℕ) :
    decimal n = (Nat.toDigits 10 n).map fun c => UInt8.ofNat c.val.toNat := by
  refine utf8_ofList_ascii fun c hc => ?_
  have := isDigit_val (Nat.isDigit_of_mem_toDigits (by omega) le_rfl hc)
  omega

lemma decimal_injective : Function.Injective decimal := by
  intro m n h
  have hs : toString m = toString n := utf8_injective h
  rw [Nat.toString_eq_ofList_toDigits, Nat.toString_eq_ofList_toDigits, String.ofList_inj] at hs
  have hd := congrArg (fun l => Nat.ofDigitChars 10 l 0) hs
  simpa only [Nat.ofDigitChars_ten_toDigits] using hd

/-- A decimal rendering consists of the bytes of the ten digits. -/
lemma mem_decimal {n : ℕ} {b : UInt8} (hb : b ∈ decimal n) : 48 ≤ b.toNat ∧ b.toNat ≤ 57 := by
  rw [decimal_eq, mem_map] at hb
  obtain ⟨c, hc, rfl⟩ := hb
  have hval := isDigit_val (Nat.isDigit_of_mem_toDigits (by omega) le_rfl hc)
  rw [UInt8.toNat_ofNat']
  omega

/-! ## Hexadecimal bytes -/

/-- The lowercase hexadecimal digit of `n`, for `n` below sixteen. -/
def hexDigit (n : ℕ) : Char :=
  if n < 10 then Char.ofNat (48 + n) else Char.ofNat (87 + n)

/-- A byte as two lowercase hexadecimal digits. -/
def hexByte (b : UInt8) : List Char := [hexDigit (b.toNat / 16), hexDigit (b.toNat % 16)]

lemma hexDigit_injOn : Set.InjOn hexDigit {n | n < 16} := by
  have h : ∀ m < 16, ∀ n < 16, hexDigit m = hexDigit n → m = n := by decide
  intro m hm n hn hmn
  exact h m hm n hn hmn

lemma hexDigit_ascii {n : ℕ} (hn : n < 16) : (hexDigit n).val.toNat ≤ 127 := by
  have h : ∀ n < 16, (hexDigit n).val.toNat ≤ 127 := by decide
  exact h n hn

lemma hexByte_injective : Function.Injective hexByte := by
  intro a b h
  have ha := a.toNat_lt
  have hb := b.toNat_lt
  simp only [hexByte, List.cons.injEq, and_true] at h
  have hhigh := hexDigit_injOn (show a.toNat / 16 < 16 by omega) (show b.toNat / 16 < 16 by omega) h.1
  have hlow := hexDigit_injOn (show a.toNat % 16 < 16 by omega) (show b.toNat % 16 < 16 by omega) h.2
  exact UInt8.toNat.inj (by omega)

/-- The hexadecimal rendering of a byte string. -/
def hex (bs : List UInt8) : String := String.ofList (bs.flatMap hexByte)

lemma hex_inj {as bs : List UInt8} (hlen : as.length = bs.length) (h : hex as = hex bs) :
    as = bs := by
  have hflat : as.flatMap hexByte ++ [] = bs.flatMap hexByte ++ [] := by
    rw [append_nil, append_nil]
    exact String.ofList_inj.mp h
  have hfield : SelfDelimitingOn .univ hexByte :=
    .of_length_eq 2 (fun _ => rfl) hexByte_injective.injOn
  exact (hfield.flatMap (by simp) (by simp) hlen hflat).1

lemma hexByte_ascii {b : UInt8} {c : Char} (hc : c ∈ hexByte b) : c.val.toNat ≤ 127 := by
  have hlt := b.toNat_lt
  simp only [hexByte, mem_cons, not_mem_nil, or_false] at hc
  rcases hc with rfl | rfl
  all_goals exact hexDigit_ascii (by omega)

lemma length_utf8_hex (bs : List UInt8) : (utf8 (hex bs)).length = 2 * bs.length := by
  rw [hex, utf8_ofList_ascii, length_map]
  · induction bs with
    | nil => rfl
    | cons b bs ih => simp [hexByte]; omega
  · intro c hc
    obtain ⟨b, _, hb⟩ := List.mem_flatMap.mp hc
    exact hexByte_ascii hb

end Text
