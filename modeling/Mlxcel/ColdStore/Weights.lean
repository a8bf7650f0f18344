import Mlxcel.ColdStore.Address

/-!
# The fingerprint of the weights

`computeWeightFingerprint` hashes the path of a model, the names of its weight files and what could
be read of them, one after the other. Nothing marks where one of them ends, and an error adds its
text like any content. `Ambiguous` says when two directories cannot be told apart by this: at the
first place where they differ, one text begins with the other and what is hashed next spells the
rest of it, or the text of an error spells what the other has read. `identifies_iff` says that
nothing else goes wrong.
-/

namespace Mlxcel.ColdStore

open List Text

/-- A file that is opened and read to its end, or up to an error. -/
inductive FileRead
  | content (bytes : List UInt8)
  | openError (error : String)
  | readError (bytes : List UInt8) (error : String)

/-- What is hashed after the name of the file. -/
def FileRead.hashed : FileRead → List UInt8
  | content bytes => bytes
  | openError error => utf8 ("open-error:" ++ error)
  | readError bytes error => bytes ++ utf8 ("read-error:" ++ error)

def FileRead.isContent : FileRead → Bool
  | content _ => true
  | _ => false

/-- The entries as `read_dir` returns them, unless it fails. One of them can also fail alone. -/
structure ModelDir where
  path : String
  entries : Option (List (Option (String × FileRead)))

/-- The extension is what follows the last dot, if anything stands before that dot. -/
def isSafetensors (name : String) : Bool :=
  ".safetensors".toList.isSuffixOf name.toList && name != ".safetensors"

namespace ModelDir

open FileRead

variable (d d' : ModelDir) (sha : List UInt8 → Digest)

/-- What is hashed of a file. -/
def parts (f : String × FileRead) : List (List UInt8) := [utf8 f.1, f.2.hashed]

/-- The weight files in the order of their names. -/
def files : List (String × FileRead) :=
  ((d.entries.getD []).reduceOption.filter fun f => isSafetensors f.1).mergeSort
    fun f g => utf8 f.1 ≤ utf8 g.1

/-- The arguments of `hasher.update`. -/
def pieces : List (List UInt8) := utf8 d.path :: d.files.flatMap parts

def computeWeightFingerprint : String := hexDigest (sha d.pieces.flatten)

/-- Every weight file that was found is read to its end. -/
def Complete : Prop := ∀ f ∈ d.files, f.2.isContent

/-- All entries are found, and all weight files among them are read to their ends. -/
def Readable : Prop := (∃ entries, d.entries = some (map some entries)) ∧ d.Complete

/-- What the stores expect of the fingerprints of two directories. -/
structure Identifies : Prop where
  same : d.Readable → d'.Readable →
    d.computeWeightFingerprint sha = d'.computeWeightFingerprint sha →
      d.path = d'.path ∧ d.files = d'.files
  failed : ¬ d.Complete → d'.Readable →
    d.computeWeightFingerprint sha ≠ d'.computeWeightFingerprint sha

/-- One of the two texts begins with the other, and what follows the shorter one spells the rest of
the longer one and what follows that. -/
def Overruns (x rest y rest' : List UInt8) : Prop :=
  ∃ z ≠ [], (y = x ++ z ∧ rest = z ++ rest') ∨ (x = y ++ z ∧ rest' = z ++ rest)

/-- What is hashed of some files. -/
def spelled (fs : List (String × FileRead)) : List UInt8 := (fs.flatMap parts).flatten

/-- At the first difference between two lists of files, a name or a content overruns, or an error
spells what the other has read. -/
def AmbiguousFiles : List (String × FileRead) → List (String × FileRead) → Prop
  | (name, read) :: fs, (name', read') :: gs =>
    Overruns (utf8 name) (read.hashed ++ spelled fs) (utf8 name') (read'.hashed ++ spelled gs) ∨
      name = name' ∧
        match read, read' with
        | .content x, .content y =>
          Overruns x (spelled fs) y (spelled gs) ∨ x = y ∧ AmbiguousFiles fs gs
        | _, _ => read.hashed ++ spelled fs = read'.hashed ++ spelled gs
  | _, _ => False

/-- The directories differ first in a path that overruns, or first in their files. -/
def Ambiguous : Prop :=
  Overruns (utf8 d.path) (spelled d.files) (utf8 d'.path) (spelled d'.files) ∨
    d.path = d'.path ∧ AmbiguousFiles d.files d'.files

variable {d d' sha}

lemma append_eq_append_iff_overruns {x rest y rest' : List UInt8} :
    x ++ rest = y ++ rest' ↔ Overruns x rest y rest' ∨ x = y ∧ rest = rest' := by
  rw [append_eq_append_iff]
  constructor
  · rintro (⟨z, hy, hrest⟩ | ⟨z, hx, hrest⟩)
    · rcases eq_or_ne z [] with rfl | hz
      · exact .inr ⟨by simpa using hy.symm, by simpa using hrest⟩
      · exact .inl ⟨z, hz, .inl ⟨hy, hrest⟩⟩
    · rcases eq_or_ne z [] with rfl | hz
      · exact .inr ⟨by simpa using hx, by simpa using hrest.symm⟩
      · exact .inl ⟨z, hz, .inr ⟨hx, hrest⟩⟩
  · rintro (⟨z, _, h | h⟩ | ⟨rfl, rfl⟩)
    · exact .inl ⟨z, h⟩
    · exact .inr ⟨z, h⟩
    · exact .inl ⟨[], by simp⟩

lemma not_overruns_self {x rest rest' : List UInt8} : ¬ Overruns x rest x rest' := by
  rintro ⟨z, hz, h | h⟩
  · exact hz (by simpa using h.1)
  · exact hz (by simpa using h.1)

@[simp] lemma spelled_cons (f : String × FileRead) (fs : List (String × FileRead)) :
    spelled (f :: fs) = utf8 f.1 ++ (f.2.hashed ++ spelled fs) := by
  simp [spelled, parts]

lemma utf8_ne_nil_of_mem_files {f : String × FileRead} (hf : f ∈ d.files) : utf8 f.1 ≠ [] := by
  have hname := (mem_filter.mp (mem_mergeSort.mp hf)).2
  intro h
  rw [show f.1 = "" from utf8_injective h] at hname
  exact absurd hname (by decide)

/-- Where the second list is read to the end, ambiguous files are different files that spell the
same. -/
lemma ambiguousFiles_iff {fs gs : List (String × FileRead)} (hfs : ∀ f ∈ fs, utf8 f.1 ≠ [])
    (hgs : ∀ f ∈ gs, utf8 f.1 ≠ [] ∧ f.2.isContent) :
    AmbiguousFiles fs gs ↔ spelled fs = spelled gs ∧ fs ≠ gs := by
  induction fs generalizing gs with
  | nil =>
    cases gs with
    | nil => simp [AmbiguousFiles]
    | cons g gs => simp [AmbiguousFiles, spelled, parts, (hgs g (by simp)).1]
  | cons f fs ih =>
    obtain ⟨name, read⟩ := f
    cases gs with
    | nil => simp [AmbiguousFiles, spelled, parts, hfs (name, read) (by simp)]
    | cons g gs =>
      obtain ⟨name', read'⟩ := g
      rw [forall_mem_cons] at hfs hgs
      obtain ⟨y, rfl⟩ : ∃ y, read' = .content y := by
        cases read' <;> simp_all [isContent]
      rw [AmbiguousFiles.eq_def, spelled_cons, spelled_cons, append_eq_append_iff_overruns]
      dsimp only
      by_cases hname : name = name'
      · subst hname
        -- the names agree, and the difference is in what was read or later
        cases read with
        | content x =>
          rw [ih hfs.2 hgs.2, hashed, hashed, append_eq_append_iff_overruns]
          by_cases hread : x = y
          · subst hread
            simp [not_overruns_self]
          · simp [hread, not_overruns_self]
        | openError error => simp [not_overruns_self]
        | readError bytes error => simp [not_overruns_self]
      · simp [hname, utf8_injective.eq_iff]

/-- Where the second directory is read to the end, ambiguous directories are different directories
with the same hashed bytes. -/
lemma ambiguous_iff (hd' : d'.Complete) : Ambiguous d d' ↔
    d.pieces.flatten = d'.pieces.flatten ∧ ¬ (d.path = d'.path ∧ d.files = d'.files) := by
  have hflatten : ∀ d : ModelDir, d.pieces.flatten = utf8 d.path ++ spelled d.files := by
    simp [pieces, spelled]
  rw [Ambiguous, hflatten, hflatten, append_eq_append_iff_overruns,
    ambiguousFiles_iff (fun f => utf8_ne_nil_of_mem_files)
      fun f hf => ⟨utf8_ne_nil_of_mem_files hf, hd' f hf⟩]
  by_cases hpath : d.path = d'.path
  · simp [hpath, not_overruns_self]
  · simp [hpath, utf8_injective.eq_iff]

/-- **The weights of a readable directory** are identified except where the other directory, which
is readable too or has a file that was not read to its end, is ambiguous with it. -/
theorem identifies_iff (hsha : Set.InjOn sha {d.pieces.flatten, d'.pieces.flatten}) :
    Identifies d d' sha ↔
      ¬ (d'.Readable ∧ (d.Readable ∨ ¬ d.Complete) ∧ Ambiguous d d') := by
  have hfp : d.computeWeightFingerprint sha = d'.computeWeightFingerprint sha ↔
      d.pieces.flatten = d'.pieces.flatten := by
    rw [computeWeightFingerprint, computeWeightFingerprint, hexDigest_injective.eq_iff]
    exact hsha.eq_iff (by simp) (by simp)
  constructor
  · rintro h ⟨hd', hd, hambiguous⟩
    obtain ⟨heq, hne⟩ := (ambiguous_iff hd'.2).mp hambiguous
    rcases hd with hd | hd
    · exact hne (h.same hd hd' (hfp.mpr heq))
    · exact h.failed hd hd' (hfp.mpr heq)
  · intro h
    refine ⟨fun hd hd' heq => ?_, fun hd hd' heq => ?_⟩
    · by_contra hne
      exact h ⟨hd', .inl hd, (ambiguous_iff hd'.2).mpr ⟨hfp.mp heq, hne⟩⟩
    · refine h ⟨hd', .inr hd, (ambiguous_iff hd'.2).mpr ⟨hfp.mp heq, fun hsame => hd ?_⟩⟩
      intro f hf
      exact hd'.2 f (hsame.2 ▸ hf)

/-- A directory with one weight file. -/
def single (path : String) (read : FileRead) : ModelDir :=
  ⟨path, some [some ("a.safetensors", read)]⟩

variable {path : String} {read : FileRead} {bytes : List UInt8}

lemma files_single : (single path read).files = [("a.safetensors", read)] := by
  have hentries : [some ("a.safetensors", read)].reduceOption = [("a.safetensors", read)] := rfl
  simp [files, single, hentries, isSafetensors]

lemma flatten_single :
    (single path read).pieces.flatten = utf8 (path ++ "a.safetensors") ++ read.hashed := by
  rw [pieces, files_single]
  simp [parts, single]

lemma readable_single : (single path (.content bytes)).Readable :=
  ⟨⟨[_], rfl⟩, by simp [Complete, files_single, isContent]⟩

/-- Another content, and a file that could not be opened. -/
theorem identifies_single :
    Identifies (single "m" (.content [1])) (single "m" (.content [2])) sha256 ∧
      Identifies (single "m" (.openError "denied")) (single "m" (.content [2])) sha256 := by
  have hsingle : ∀ read, sha256 (single "m" read).pieces.flatten ≠
      sha256 (single "m" (.content [2])).pieces.flatten →
      Identifies (single "m" read) (single "m" (.content [2])) sha256 := by
    intro read hne
    refine (identifies_iff ?_).mpr ?_
    · rintro x (rfl | rfl) y (rfl | rfl) h
      · rfl
      · exact absurd h hne
      · exact absurd h.symm hne
      · rfl
    · rintro ⟨hd', _, h⟩
      exact hne (congrArg sha256 ((ambiguous_iff hd'.2).mp h).1)
  constructor
  · refine hsingle _ ?_
    rw [flatten_single, flatten_single]
    decide +kernel
  · refine hsingle _ ?_
    rw [flatten_single, flatten_single]
    decide +kernel

/-- **Two failures.** The name of a file can be the end of a path, and a file can contain the text
of an error. -/
theorem not_identifies :
    ¬ Identifies (single "m" (.content (utf8 "a.safetensors")))
        (single "ma.safetensors" (.content [])) sha256 ∧
      ¬ Identifies (single "m" (.openError "denied"))
        (single "m" (.content (utf8 "open-error:denied"))) sha256 := by
  constructor
  · intro h
    have hsame := h.same readable_single readable_single (by
      rw [computeWeightFingerprint, computeWeightFingerprint, flatten_single, flatten_single]
      simp [hashed, ← utf8_append])
    exact absurd hsame.1 (by decide)
  · intro h
    refine h.failed (by simp [Complete, files_single, isContent]) readable_single ?_
    rw [computeWeightFingerprint, computeWeightFingerprint, flatten_single, flatten_single]
    rfl

end ModelDir

end Mlxcel.ColdStore
