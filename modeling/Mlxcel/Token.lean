import Mlxcel.Lib.Delimited

/-!
# Tokens

The token ids that every cache of the repository is keyed by, and the bytes that they are hashed
as.
-/

namespace Mlxcel

open Delimited

/-- Tokens are `i32`. -/
abbrev Token := Int32

/-- `to_le_bytes`. -/
def tokenBytes (t : Token) : List UInt8 := leBytes 4 t.toUInt32.toNat

lemma tokenBytes_selfDelimiting : SelfDelimitingOn Set.univ tokenBytes := by
  refine .of_length_eq 4 (fun t => length_leBytes 4 _) ?_
  rintro ⟨s⟩ _ ⟨t⟩ _ h
  have hs : s.toNat < 256 ^ 4 := s.toNat_lt
  have ht : t.toNat < 256 ^ 4 := t.toNat_lt
  have hst : s = t := UInt32.toNat.inj (leBytes_injOn 4 hs ht h)
  rw [hst]

end Mlxcel
