import Mlxcel.ColdStore.Tiers

/-!
# Which directory names are digests

`parse_hex_digest` cuts a name of 64 bytes into pairs and gives each to `u8::from_str_radix`. A cut
inside a character panics, and the integer parser takes a plus sign for the first digit. Other names
are read as they should be: `parseHexDigest_eq_iff` says which.
-/

namespace Mlxcel.ColdStore

open List Text Option Except Fallible

/-- The bytes that an even number of hexadecimal digits stand for. -/
def hexValues : List UInt8 → Option (List UInt8)
  | a :: b :: rest => do
    let byte := UInt8.ofNat (16 * (← hexValue a) + (← hexValue b))
    return byte :: (← hexValues rest)
  | [] => some []
  | [_] => none

/-- The digest that a name of 64 hexadecimal digits stands for. -/
def spelled (name : String) : Option Digest :=
  if (utf8 name).length = 64 then
    (hexValues (utf8 name)).bind fun bytes => if h : bytes.length = 32 then some ⟨bytes, h⟩ else none
  else none

/-- The bytes start inside a character. -/
def startsInside (bs : List UInt8) : Bool := bs.head?.any fun c => c.toNat / 64 = 2

/-- A pair of bytes is no number, and up to its end the pairs are cut between characters. -/
def HasBadPair : List UInt8 → Prop
  | a :: b :: rest => startsInside rest = false ∧ (hexPair a b = none ∨ HasBadPair rest)
  | _ => False

variable {bs vs : List UInt8}

/-- A digit is an ASCII character other than the plus sign. -/
lemma hexValue_some {a : UInt8} {x : ℕ} (h : hexValue a = some x) : a.toNat / 64 ≠ 2 ∧ a ≠ 43 := by
  refine ⟨fun hhalf => ?_, fun heq => ?_⟩
  · rw [hexValue, if_neg (by omega), if_neg (by omega), if_neg (by omega)] at h
    cases h
  · rw [heq] at h
    cases h

lemma hexValues_cons_some {a b : UInt8} (h : hexValues (a :: b :: bs) = some vs) :
    ∃ x y rest, hexValue a = some x ∧ hexValue b = some y ∧ hexValues bs = some rest ∧
      vs = UInt8.ofNat (16 * x + y) :: rest := by
  simp only [hexValues, bind_eq_bind, bind_eq_some_iff] at h
  obtain ⟨x, hx, y, hy, rest, hrest, h⟩ := h
  exact ⟨x, y, rest, hx, hy, hrest, (some.inj h).symm⟩

lemma parseHexPairs_cons (a b : UInt8) (bs : List UInt8) : parseHexPairs (a :: b :: bs) =
    if startsInside bs then .error (.panic "byte index is not a char boundary")
    else (hexPair a b).elim (.ok none) fun byte => (parseHexPairs bs).map (·.map (byte :: ·)) := by
  rw [parseHexPairs]
  refine if_congr Iff.rfl rfl ?_
  cases hexPair a b <;> cases parseHexPairs bs <;> rfl

lemma parseHexPairs_of_hexValues (h : hexValues bs = some vs) :
    parseHexPairs bs = .ok (some vs) := by
  induction bs using hexValues.induct generalizing vs with
  | case1 a b bs ih =>
    obtain ⟨x, y, rest, hx, hy, hrest, rfl⟩ := hexValues_cons_some h
    have hcut : startsInside bs = false := by
      rcases bs with _ | ⟨c, _ | ⟨c', bs⟩⟩
      · rfl
      · cases hrest
      · obtain ⟨z, -, -, hz, -⟩ := hexValues_cons_some hrest
        simpa [startsInside] using (hexValue_some hz).1
    rw [parseHexPairs_cons, hcut, ih hrest, hexPair, if_neg (hexValue_some hx).2, hx, hy]
    rfl
  | case2 => rw [← some.inj h]; rfl
  | case3 => cases h

/-- A name is refused exactly for a bad pair. -/
lemma parseHexPairs_eq_none : parseHexPairs bs = .ok none ↔ HasBadPair bs := by
  induction bs using hexValues.induct with
  | case1 a b bs ih =>
    rw [HasBadPair, ← ih, parseHexPairs_cons]
    cases startsInside bs <;> cases hexPair a b <;> rcases parseHexPairs bs with _ | _ | _ <;>
      simp [Except.map]
  | case2 | case3 => simp [parseHexPairs, HasBadPair]

/-- What is accepted has two bytes of the name for each of the digest. -/
lemma length_of_parseHexPairs (h : parseHexPairs bs = .ok (some vs)) :
    vs.length = bs.length / 2 := by
  induction bs using hexValues.induct generalizing vs with
  | case1 a b bs ih =>
    rw [parseHexPairs_cons] at h
    cases hcut : startsInside bs <;> cases hpair : hexPair a b <;>
      rcases hrest : parseHexPairs bs with _ | _ | rest <;> simp [hcut, hpair, hrest, Except.map] at h
    rw [← h, length_cons, ih hrest, length_cons, length_cons]
    omega
  | case2 | case3 =>
    cases h
    simp

/-- **Names are parsed exactly** unless a cut inside a character comes before the first bad pair, or
a plus sign makes up for a digit. What a digest is filed under is always read back. -/
theorem parseHexDigest_eq_iff (d : Digest) (name : String) :
    parseHexDigest (hexDigest d) = .ok (some d) ∧ (parseHexDigest name = .ok (spelled name) ↔
      ((utf8 name).length = 64 → hexValues (utf8 name) ≠ none ∨ HasBadPair (utf8 name))) := by
  refine ⟨parseHexDigest_hexDigest d, ?_⟩
  rw [parseHexDigest, spelled]
  by_cases hlen : (utf8 name).length = 64
  · simp only [hlen, true_imp_iff, ← parseHexPairs_eq_none, if_true]
    cases hvalues : hexValues (utf8 name) with
    | some vs => simp [parseHexPairs_of_hexValues hvalues, bind, Except.bind, pure, Except.pure]
    | none =>
      rcases hpairs : parseHexPairs (utf8 name) with fault | _ | vs
      · simp [bind, Except.bind]
      · simp [bind, Except.bind, pure, Except.pure]
      · have hvs := length_of_parseHexPairs hpairs
        simp [bind, Except.bind, pure, Except.pure, hvs, hlen]
  · simp [hlen]

/-- A plus sign before a digit is taken for a byte. -/
theorem not_forall_parseHexDigest_eq : ¬ ∀ name, parseHexDigest name = .ok (spelled name) := by
  intro h
  exact absurd (h "+100000000000000000000000000000000000000000000000000000000000000") (by decide)

end Mlxcel.ColdStore
