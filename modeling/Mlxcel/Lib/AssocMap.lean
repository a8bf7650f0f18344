import Mathlib.Data.List.AList
import Mathlib.Data.List.Induction
import Mathlib.Algebra.BigOperators.Group.List.Basic

/-!
# Maps with constant value type

Lemmas on association lists without duplicate keys whose values all have one type: what a lookup
finds after an insertion, a removal or a loop of insertions, and how a sum over the entries changes.
-/

namespace AssocMap

open List Option AList

variable {κ ν M : Type*} [DecidableEq κ] {m : AList fun _ : κ => ν}

lemma lookup_insert_eq (m : AList fun _ : κ => ν) (a b : κ) (v : ν) :
    (m.insert a v).lookup b = if b = a then some v else m.lookup b := by
  by_cases h : b = a
  · rw [if_pos h, h, lookup_insert]
  · rw [if_neg h, lookup_insert_ne h]

lemma lookup_erase_eq (m : AList fun _ : κ => ν) (a b : κ) :
    (m.erase a).lookup b = if b = a then none else m.lookup b := by
  by_cases h : b = a
  · rw [if_pos h, h, lookup_erase]
  · rw [if_neg h, lookup_erase_ne h]

variable {v : ν}

lemma lookup_erase_eq_some {a b : κ} :
    (m.erase a).lookup b = some v ↔ b ≠ a ∧ m.lookup b = some v := by
  rw [lookup_erase_eq]
  by_cases h : b = a <;> simp [h]

lemma lookup_insert_eq_some {a b : κ} {v v' : ν} (h : (m.insert a v).lookup b = some v') :
    b = a ∧ v' = v ∨ b ≠ a ∧ m.lookup b = some v' := by
  rw [lookup_insert_eq] at h
  split_ifs at h with hb
  · exact .inl ⟨hb, (some.inj h).symm⟩
  · exact .inr ⟨hb, h⟩

/-- What is found after an insertion was there before, or is the new value. -/
lemma lookup_insert_or {Q : ν → Prop} {a b : κ} {v v' : ν} (hnew : Q v)
    (h : (m.insert a v).lookup b = some v') : m.lookup b = some v' ∨ Q v' := by
  rcases lookup_insert_eq_some h with ⟨_, rfl⟩ | ⟨_, h⟩
  · exact .inr hnew
  · exact .inl h

lemma lt_of_lookup_insert [Preorder κ] {a b n : κ} {v v' : ν} (hnew : a < n)
    (hold : ∀ {b v}, m.lookup b = some v → b < n) (h : (m.insert a v).lookup b = some v') :
    b < n := by
  rcases lookup_insert_eq_some h with ⟨rfl, _⟩ | ⟨_, h⟩
  · exact hnew
  · exact hold h

lemma lookup_of_erase {a b : κ} (h : (m.erase a).lookup b = some v) :
    m.lookup b = some v :=
  (lookup_erase_eq_some.mp h).2

lemma lookup_eq_none_of_lt [Preorder κ] {n : κ} (h : ∀ {a v}, m.lookup a = some v → a < n) :
    m.lookup n = none :=
  eq_none_iff_forall_ne_some.mpr fun _ hn => lt_irrefl n (h hn)

section Loop

variable {ι : Type*} (key : ι → κ) (val : ι → ν)

/-- What is found after a loop of insertions was inserted, or was there before. -/
lemma lookup_foldl_insert_eq_some {xs : List ι} {m : AList fun _ : κ => ν} {a : κ} {v : ν}
    (h : (xs.foldl (fun m x => m.insert (key x) (val x)) m).lookup a = some v) :
    (∃ x ∈ xs, key x = a ∧ val x = v) ∨ m.lookup a = some v := by
  induction xs generalizing m with
  | nil => exact .inr h
  | cons x xs ih =>
    rcases ih h with ⟨y, hy, hkey⟩ | hinsert
    · exact .inl ⟨y, mem_cons_of_mem x hy, hkey⟩
    · rcases lookup_insert_eq_some hinsert with ⟨rfl, rfl⟩ | ⟨_, hm⟩
      · exact .inl ⟨x, mem_cons_self, rfl, rfl⟩
      · exact .inr hm

/-- Every key of a loop of insertions is found, with a value that was inserted under it. -/
lemma exists_lookup_foldl_insert {xs : List ι} (m : AList fun _ : κ => ν) {x : ι} (hx : x ∈ xs) :
    ∃ y ∈ xs, key y = key x ∧
      (xs.foldl (fun m x => m.insert (key x) (val x)) m).lookup (key x) = some (val y) := by
  induction xs using reverseRecOn with
  | nil => exact absurd hx not_mem_nil
  | append_singleton xs y ih =>
    rw [foldl_append, foldl_cons, foldl_nil, lookup_insert_eq]
    by_cases hkey : key x = key y
    · exact ⟨y, by simp, hkey.symm, if_pos hkey⟩
    · have hxs : x ∈ xs := by
        rcases mem_append.mp hx with hxs | hxy
        · exact hxs
        · exact absurd (congrArg key (mem_singleton.mp hxy)) hkey
      obtain ⟨z, hz, hzkey, hlookup⟩ := ih hxs
      exact ⟨z, mem_append_left _ hz, hzkey, (if_neg hkey).trans hlookup⟩

/-- If the keys of a loop of insertions differ, each is found with its value. -/
lemma lookup_foldl_insert_of_nodup {xs : List ι} (m : AList fun _ : κ => ν)
    (hxs : (xs.map key).Nodup) {x : ι} (hx : x ∈ xs) :
    (xs.foldl (fun m x => m.insert (key x) (val x)) m).lookup (key x) = some (val x) := by
  obtain ⟨y, hy, hkey, hlookup⟩ := exists_lookup_foldl_insert key val m hx
  rw [hlookup, inj_on_of_nodup_map hxs hy hx hkey]

end Loop

variable {a : κ}

lemma erase_eq_self (h : m.lookup a = none) : m.erase a = m :=
  ext (kerase_of_notMem_keys (lookup_eq_none.mp h))

/-- The entries are the one under a key and those of the map without it. -/
lemma entries_perm (h : m.lookup a = some v) :
    m.entries.Perm (⟨a, v⟩ :: (m.erase a).entries) := by
  have hmem : a ∈ m.entries.keys := by
    rw [← AList.keys, ← AList.mem_keys, ← AList.lookup_isSome, h]
    rfl
  obtain ⟨w, left, right, hnot, hentries, herase⟩ := exists_of_kerase hmem
  have hw : w = v := by
    have hlookup : m.entries.dlookup a = some v := h
    rw [hentries, dlookup_append, dlookup_eq_none.mpr hnot, none_or,
      dlookup_cons_eq, some.injEq] at hlookup
    exact hlookup
  show m.entries.Perm (⟨a, v⟩ :: m.entries.kerase a)
  rw [herase, hentries, hw]
  exact perm_middle

lemma length_insert_of_some (h : m.lookup a = some v) (w : ν) :
    (m.insert a w).entries.length = m.entries.length := by
  rw [(entries_perm h).length_eq]
  rfl

lemma length_insert_of_none (h : m.lookup a = none) (w : ν) :
    (m.insert a w).entries.length = m.entries.length + 1 := by
  rw [entries_insert, length_cons, kerase_of_notMem_keys (lookup_eq_none.mp h)]

/-- Maps that have values of interest under the same keys have as many of them. -/
lemma length_filter_eq {m' : AList fun _ : κ => ν} {p : ν → Bool}
    (h : ∀ a, (∃ v ∈ m.lookup a, p v) ↔ ∃ v ∈ m'.lookup a, p v) :
    (m.entries.filter fun e => p e.2).length = (m'.entries.filter fun e => p e.2).length := by
  have hnodup : ∀ m : AList fun _ : κ => ν,
      ((m.entries.filter fun e => p e.2).map Sigma.fst).Nodup := fun m =>
    .sublist (filter_sublist.map Sigma.fst) m.nodupKeys
  have hmem : ∀ (m : AList fun _ : κ => ν) (a : κ),
      a ∈ (m.entries.filter fun e => p e.2).map Sigma.fst ↔ ∃ v ∈ m.lookup a, p v := by
    intro m a
    simp [← mem_lookup_iff]
  have hperm := (perm_ext_iff_of_nodup (hnodup m) (hnodup m')).mpr fun a => by
    rw [hmem, hmem, h]
  simpa only [length_map] using hperm.length_eq

lemma sum_erase [AddCommMonoid M] (h : m.lookup a = some v) (f : ν → M) :
    (m.entries.map fun e => f e.2).sum = f v + ((m.erase a).entries.map fun e => f e.2).sum :=
  ((entries_perm h).map fun e => f e.2).sum_eq.trans sum_cons

lemma sum_insert [AddCommMonoid M] (m : AList fun _ : κ => ν) (a : κ) (v : ν) (f : ν → M) :
    ((m.insert a v).entries.map fun e => f e.2).sum
      = f v + ((m.erase a).entries.map fun e => f e.2).sum := by
  rfl

end AssocMap
