import Mlxcel.Speculative.Mtp

/-!
# The batched DFlash driver

`DFlashBatchedGenerator::run_batched`. The caller has prefilled the target and streamed the first
bonus tokens; the driver emits what follows them. It differs from the MTP driver in its walk, in
that the first bonus is not checked against the stop tokens, in that a frozen row keeps its budget
(its emissions are dropped instead), and in that the rollback is left out when every row accepted
its whole block.
-/

namespace Mlxcel.Speculative

open List Decode CommonPrefix

variable {L : Type}

/-! ## The walk -/

/-- The `while` loop of `speculative_walk_batched` in `dflash/round_loop_batched.rs`. -/
def acceptLoop (d t : List Token) (n accepted : ℕ) : ℕ :=
  if accepted < n then
    if t.length ≤ accepted then accepted
    else if d[accepted]? ≠ t[accepted]? then accepted
    else acceptLoop d t n (accepted + 1)
  else accepted
  termination_by n - accepted

/-- The body of `speculative_walk_batched` in `dflash/round_loop_batched.rs`. -/
def dflashWalk (d t : List Token) (budget : ℕ) : WalkResult :=
  let n := min d.length t.length
  let accepted := acceptLoop d t n 0
  let bonusIdx := min accepted (t.length - 1)
  let newTokens := d.take accepted ++ t[bonusIdx]?.toList
  { accepted
    newTokens := newTokens.take budget }

/-- `speculative_walk_batched` of `dflash/round_loop_batched.rs`. -/
def dflashWalkBatched (draftTokens targetTokens : List (List Token)) (budgets : List ℕ) :
    List WalkResult :=
  (draftTokens.zip (targetTokens.zip budgets)).map fun row => dflashWalk row.1 row.2.1 row.2.2

lemma acceptLoop_eq {d t : List Token} {accepted : ℕ} (h : accepted ≤ commonPrefixLen d t) :
    acceptLoop d t (min d.length t.length) accepted = commonPrefixLen d t := by
  obtain ⟨hleft, hright, hagree⟩ := le_commonPrefixLen_iff.mp h
  generalize hn : min d.length t.length = n
  fun_induction acceptLoop d t n accepted with
  | case1 accepted hlt hout => omega
  | case2 accepted hlt hout hdiffer =>
    -- a longer common prefix would contain the position that differs
    refine le_antisymm h (not_lt.mp fun hlonger => hdiffer ?_)
    rw [← getElem?_take_of_lt hlonger, take_commonPrefixLen,
      getElem?_take_of_lt hlonger]
  | case3 accepted hlt hout hsame ih =>
    have hnext : accepted + 1 ≤ commonPrefixLen d t := by
      rw [le_commonPrefixLen_iff, take_add_one, take_add_one, hagree,
        not_not.mp hsame]
      exact ⟨by omega, by omega, rfl⟩
    obtain ⟨hleft, hright, hagree⟩ := le_commonPrefixLen_iff.mp hnext
    exact ih hnext hleft hright hagree
  | case4 accepted hlt =>
    have hd := commonPrefixLen_le_left d t
    have ht := commonPrefixLen_le_right d t
    omega

variable (next : List Token → Token) (stopTokens : List Token)

/-- Both walks agree on the answers of a verify pass. -/
lemma dflashWalk_choices (context : List Token) (bonus : Token) (drafts : List Token) (budget : ℕ) :
    dflashWalk drafts (choices next context (bonus :: drafts)) budget =
      ⟨accepted next context bonus drafts, roundTokens next context bonus drafts budget⟩ := by
  have hle := accepted_le next context bonus drafts
  have hloop : acceptLoop drafts (choices next context (bonus :: drafts))
      (min drafts.length (choices next context (bonus :: drafts)).length) 0 =
        accepted next context bonus drafts := acceptLoop_eq (Nat.zero_le _)
  simp only [dflashWalk, hloop]
  rw [length_choices, length_cons, Nat.add_sub_cancel, Nat.min_eq_left hle, roundTokens,
    take_accepted, take_add_one]

/-! ## The driver -/

structure DFlashBatchedGenerator where
  drafter : Drafter
  blockSize : ℕ

/-- One row of the batch. `tokens` leaves out the first bonus, `emitted` counts it. -/
structure DFlashRow where
  tokens : List Token
  acceptLens : List ℕ := []
  bonus : Token
  emitted : ℕ
  finished : Bool
  context : List Token
  deriving DecidableEq

open DFlashRow

/-- A row before the first round. -/
def DFlashRow.seed (bonus : Token) (context : List Token) : DFlashRow :=
  { tokens := [], bonus, emitted := 1, finished := false, context }

/-- The locals of `run_batched` between two rounds; `calls` counts the blocks drafted. -/
structure DFlashRun where
  rows : List DFlashRow
  calls : ℕ

/-- The emit loop of a row; a frozen row emits nothing. -/
def DFlashRow.emit (maxNewTokens : ℕ) (row : DFlashRow) (walk : WalkResult) : DFlashRow :=
  if row.finished then row
  else
    let (out, hitEos) := emitTokens stopTokens maxNewTokens row.emitted walk.newTokens
    let emitted := row.emitted + out.length
    { row with
      tokens := row.tokens ++ out
      emitted
      finished := hitEos || decide (maxNewTokens ≤ emitted) }

namespace DFlashBatchedGenerator

variable (m : DFlashBatchedGenerator) (target : Target L) (stopTokens : List Token)
  (maxNewTokens : ℕ)

/-- A round from the verify pass to the new bonus tokens: the rows, and how many drafts each of
them accepted. The caches hold the whole block. -/
def verifyRound (rows : List DFlashRow) (drafts : List (List Token)) : List DFlashRow × List ℕ :=
  let verifyInput := zipWith (fun row draft => row.bonus :: draft) rows drafts
  let targetTokens :=
    zipWith (fun row input => choices target.next row.context input) rows verifyInput
  let budgets := rows.map fun row => maxNewTokens - row.emitted
  let walks := dflashWalkBatched drafts targetTokens budgets
  let rows := zipWith (fun row walk =>
    { row with acceptLens := row.acceptLens ++ [walk.accepted] }) rows walks
  let rows := zipWith (emit stopTokens maxNewTokens) rows walks
  let rows := zipWith (fun row walk =>
    { row with bonus := walk.newTokens.getLast?.getD row.bonus }) rows walks
  let rows := zipWith (fun row input => { row with context := row.context ++ input })
    rows verifyInput
  (rows, walks.map (·.accepted))

/-- `rollback_partial_batched`, which is only called when some row rejected a draft. -/
def rollback (rows : List DFlashRow) (accepted : List ℕ) (bs : ℕ) : List DFlashRow :=
  let minAccepted := accepted.min?.getD 0
  if minAccepted + 1 < bs then
    zipWith (fun row accepted =>
      { row with context := verifyFinalize accepted bs row.context }) rows accepted
  else rows

/-- The round loop's body. -/
def round (s : DFlashRun) : DFlashRun ⊕ Except DrafterError (List DFlashRow) :=
  if s.rows.all (·.finished) then .inr (.ok s.rows)
  else
    let bs := min m.blockSize
      (remainingMin maxNewTokens (s.rows.map fun row => (row.finished, row.emitted)))
    if bs ≤ 1 then .inr (.ok s.rows)
    else
      match m.drafter.draftBlockBatched s.calls (s.rows.map (·.bonus)) (s.rows.map (·.context))
        bs with
      | .error e => .inr (.error e)
      | .ok drafts =>
        let (rows, accepted) := verifyRound target stopTokens maxNewTokens s.rows drafts
        if rows.all (·.finished) then .inr (.ok rows)
        else .inl { rows := rollback rows accepted bs, calls := s.calls + 1 }

/-- `run_batched` on a target that has read `prompts` and chosen `firstBonus` after them, with at
most `fuel` rounds. -/
def runBatched (prompts : List (List Token)) (firstBonus : List Token) (fuel : ℕ) :
    Option (Except DrafterError (List DFlashRow)) :=
  match m.drafter.bind, m.drafter.reset with
  | .error e, _ => some (.error e)
  | .ok (), .error e => some (.error e)
  | .ok (), .ok () =>
    if firstBonus = [] then
      some (.error (.draftFailed
        "DFlash batched round loop requires B >= 1; got first_bonus = []"))
    else
      let rows := zipWith seed firstBonus prompts
      if maxNewTokens ≤ 1 then some (.ok rows)
      else Loop.run (m.round target stopTokens maxNewTokens) fuel { rows, calls := 0 }

end DFlashBatchedGenerator

/-! ## Rows -/

/-- What a round does to one row, before the rollback. -/
def DFlashRow.step (maxNewTokens : ℕ) (row : DFlashRow) (draft : List Token) : DFlashRow :=
  let walk := dflashWalk draft (choices next row.context (row.bonus :: draft))
    (maxNewTokens - row.emitted)
  let row' := emit stopTokens maxNewTokens
    { row with acceptLens := row.acceptLens ++ [walk.accepted] } walk
  { row' with
    bonus := walk.newTokens.getLast?.getD row'.bonus
    context := row'.context ++ row.bonus :: draft }

/-- The drafts that a row accepts in a round. -/
def DFlashRow.accepted (next : List Token → Token) (row : DFlashRow) (draft : List Token) : ℕ :=
  Decode.accepted next row.context row.bonus draft

/-- What a round does to one row. -/
def DFlashRow.advance (maxNewTokens : ℕ) (row : DFlashRow) (draft : List Token) : DFlashRow :=
  { row.step next stopTokens maxNewTokens draft with
    context := verifyFinalize (row.accepted next draft) (draft.length + 1)
      (row.step next stopTokens maxNewTokens draft).context }

section Rows

variable {m : DFlashBatchedGenerator} {target : Target L} {stopTokens : List Token}
  {maxNewTokens : ℕ} {rows : List DFlashRow} {drafts : List (List Token)}

/-- The rows of a batch do not touch each other. -/
lemma DFlashBatchedGenerator.verifyRound_eq (hlen : drafts.length = rows.length) :
    verifyRound target stopTokens maxNewTokens rows drafts =
      (zipWith (step target.next stopTokens maxNewTokens) rows drafts,
        zipWith (DFlashRow.accepted target.next) rows drafts) := by
  simp only [verifyRound, dflashWalkBatched]
  induction rows generalizing drafts with
  | nil => simp
  | cons row rows ih =>
    cases drafts with
    | nil => simp at hlen
    | cons draft drafts =>
      obtain ⟨hrows, haccepted⟩ :=
        Prod.mk.injEq .. ▸ ih (by simpa using hlen : drafts.length = rows.length)
      simp only [map_cons, zipWith_cons_cons, zip_cons_cons, hrows, haccepted]
      simp only [DFlashRow.step, DFlashRow.accepted, dflashWalk_choices]

/-- Nothing is taken back from a row that accepted all of its drafts. -/
lemma DFlashRow.advance_eq_step {row : DFlashRow} {draft : List Token}
    (h : draft.length ≤ row.accepted target.next draft) :
    row.advance target.next stopTokens maxNewTokens draft =
      row.step target.next stopTokens maxNewTokens draft := by
  have hnone : draft.length + 1 - (row.accepted target.next draft + 1) = 0 := by omega
  rw [advance, verifyFinalize, hnone, trim, Nat.sub_zero, take_length]

/-- Leaving the rollback out when all drafts were accepted makes no difference. -/
lemma DFlashBatchedGenerator.rollback_eq {bs : ℕ} (hlen : drafts.length = rows.length)
    (hwidth : ∀ draft ∈ drafts, draft.length + 1 = bs) :
    rollback (zipWith (step target.next stopTokens maxNewTokens) rows drafts)
        (zipWith (accepted target.next) rows drafts) bs =
      zipWith (advance target.next stopTokens maxNewTokens) rows drafts := by
  rw [rollback]
  split_ifs with hmin
  · clear hmin
    induction rows generalizing drafts with
    | nil => simp
    | cons row rows ih =>
      cases drafts with
      | nil => simp at hlen
      | cons draft drafts =>
        rw [forall_mem_cons] at hwidth
        simp only [zipWith_cons_cons, List.cons.injEq]
        exact ⟨by rw [← hwidth.1]; rfl, ih (by simpa using hlen) hwidth.2⟩
  · -- no row is below the least number of accepted drafts
    have hall : ∀ a ∈ zipWith (DFlashRow.accepted target.next) rows drafts, bs ≤ a + 1 := by
      intro a ha
      cases hleast : (zipWith (DFlashRow.accepted target.next) rows drafts).min? with
      | none =>
        rw [min?_eq_none_iff.mp hleast] at ha
        simp at ha
      | some least =>
        rw [hleast, Option.getD_some] at hmin
        have hle := (List.min?_eq_some_iff.mp hleast).2 a ha
        omega
    clear hmin
    induction rows generalizing drafts with
    | nil => simp
    | cons row rows ih =>
      cases drafts with
      | nil => simp at hlen
      | cons draft drafts =>
        rw [forall_mem_cons] at hwidth
        rw [zipWith_cons_cons, forall_mem_cons] at hall
        rw [zipWith_cons_cons, zipWith_cons_cons,
          ih (by simpa using hlen) hwidth.2 hall.2,
          advance_eq_step (by omega : draft.length ≤ row.accepted target.next draft)]

/-- A row after `n` rounds; the first bonus is what the target chose after the prompt. -/
def DFlashRow.Ok (next : List Token → Token) (stopTokens : List Token) (maxNewTokens n : ℕ)
    (prompt : List Token) (row : DFlashRow) : Prop :=
  row.emitted = row.tokens.length + 1 ∧
    RowOk next stopTokens prompt maxNewTokens n (next prompt :: row.tokens) row.context row.bonus
      row.finished

/-- **One round of a row.** A frozen row keeps its answer, whatever it is fed. -/
lemma DFlashRow.Ok.advance {next : List Token → Token} {prompt : List Token} {n : ℕ}
    {row : DFlashRow} (hrow : row.Ok next stopTokens maxNewTokens n prompt) (draft : List Token) :
    (row.advance next stopTokens maxNewTokens draft).Ok next stopTokens maxNewTokens (n + 1)
      prompt := by
  obtain ⟨hemitted, hrow⟩ := hrow
  simp only [DFlashRow.advance, DFlashRow.step, dflashWalk_choices, DFlashRow.accepted]
  cases hfinished : row.finished with
  | true =>
    simpa [Ok, RowOk, emit, hfinished, hemitted] using hrow
  | false =>
    rw [hfinished] at hrow
    have hnext := hrow.advance draft rfl rfl
    refine ⟨?_, ?_⟩
    · simp [emit]
      omega
    · simpa [emit, hemitted, Nat.add_right_comm] using hnext

end Rows

/-! ## Runs -/

section Runs

variable {m : DFlashBatchedGenerator} {target : Target L} {stopTokens : List Token}
  {maxNewTokens : ℕ} {prompts : List (List Token)} {s : DFlashRun}

/-- The batch after `s.calls` rounds. -/
def DFlashRun.Ok (target : Target L) (stopTokens : List Token) (maxNewTokens : ℕ)
    (prompts : List (List Token)) (s : DFlashRun) : Prop :=
  Forall₂ (DFlashRow.Ok target.next stopTokens maxNewTokens s.calls) prompts s.rows

lemma DFlashRun.Ok.active (hs : s.Ok target stopTokens maxNewTokens prompts) {row : DFlashRow}
    (hrow : row ∈ s.rows) (hactive : row.finished = false) :
    s.calls < row.emitted ∧ row.emitted < maxNewTokens := by
  obtain ⟨prompt, -, hemitted, hok⟩ := exists_of_mem_right hs hrow
  rw [hactive] at hok
  obtain ⟨hpending, hcalls⟩ : _ ∧ _ := hok
  have hshort := hpending.short
  rw [length_cons] at hcalls hshort
  omega

/-- **One round of the driver.** -/
lemma DFlashBatchedGenerator.round_ok (hdrafter : m.drafter.Answers) (hblock : 2 ≤ m.blockSize)
    (hs : s.Ok target stopTokens maxNewTokens prompts) :
    Sum.elim (fun s' => s'.Ok target stopTokens maxNewTokens prompts ∧
        maxNewTokens - s'.calls < maxNewTokens - s.calls)
      (fun result => ∃ rows, result = .ok rows ∧ Forall₂ (fun prompt row =>
        target.next prompt :: row.tokens =
          cut stopTokens (continuation target.next prompt maxNewTokens)) prompts rows)
      (m.round target stopTokens maxNewTokens s) := by
  rw [round]
  by_cases hall : s.rows.all (·.finished) = true
  · rw [if_pos hall]
    exact ⟨s.rows, rfl, forall₂_of_all (hs.imp fun _ _ hrow => hrow.2.answer) hall⟩
  have hactive : ∃ row ∈ s.rows, row.finished = false := by simpa using hall
  have hremaining : 2 ≤ remainingMin maxNewTokens
      (s.rows.map fun row => (row.finished, row.emitted)) := by
    refine two_le_remainingMin (by simpa using hactive) ?_
    simp only [mem_map, forall_exists_index, and_imp, forall_apply_eq_imp_iff₂]
    exact fun row hrow hrun => (hs.active hrow hrun).2
  generalize hbs : min m.blockSize _ = bs
  obtain ⟨drafts, hdrafts, hlen, hwidth⟩ := hdrafter.draftBlockBatched s.calls
    (s.rows.map (·.bonus)) (s.rows.map (·.context)) bs
  rw [length_map] at hlen
  have hblocks : ∀ draft ∈ drafts, draft.length + 1 = bs := by
    intro draft hdraft
    rw [hwidth draft hdraft]
    omega
  simp only [if_neg (by omega : ¬ bs ≤ 1), hdrafts, verifyRound_eq hlen, rollback_eq hlen hblocks]
  split_ifs with hdone
  · refine ⟨_, rfl, forall₂_of_all (forall₂_zipWith hs hlen ?_) hdone⟩
    intro prompt row draft _ hrow
    exact (hrow.advance draft).2.answer
  · obtain ⟨row, hrow, hrun⟩ := hactive
    have hcalls := hs.active hrow hrun
    exact ⟨forall₂_zipWith hs hlen fun prompt row draft _ hrow => hrow.advance draft,
      by simp only; omega⟩

/-- **The batched DFlash driver is lossless**, row by row. -/
theorem DFlashBatchedGenerator.runBatched_eq (hdrafter : m.drafter.Answers)
    (hblock : 2 ≤ m.blockSize) (hbatch : prompts ≠ []) (hmax : 1 ≤ maxNewTokens)
    (hseed : ∀ prompt ∈ prompts, target.next prompt ∉ stopTokens) {fuel : ℕ}
    (hfuel : maxNewTokens < fuel) :
    ∃ rows, m.runBatched target stopTokens maxNewTokens prompts (prompts.map target.next) fuel =
        some (.ok rows) ∧
      Forall₂ (fun prompt row => target.next prompt :: row.tokens =
        cut stopTokens (continuation target.next prompt maxNewTokens)) prompts rows := by
  have hseeds : .zipWith .seed (prompts.map target.next) prompts =
      prompts.map fun prompt => seed (target.next prompt) prompt := by
    rw [zipWith_map_left, zipWith_self]
  simp only [runBatched, hdrafter.bind, hdrafter.reset, map_eq_nil_iff, if_neg hbatch, hseeds]
  split_ifs with hone
  · refine ⟨_, rfl, ?_⟩
    rw [forall₂_map_right_iff, forall₂_same]
    intro prompt hprompt
    obtain rfl : maxNewTokens = 1 := by omega
    simp [continuation, cut, seed]
  · have hrows : Forall₂ (Ok target.next stopTokens maxNewTokens 0) prompts
        (prompts.map fun prompt => .seed (target.next prompt) prompt) := by
      rw [forall₂_map_right_iff, forall₂_same]
      intro prompt hprompt
      have hrow := RowOk.seed hmax (hseed prompt hprompt)
      rw [decide_eq_false hone] at hrow
      exact ⟨rfl, hrow⟩
    obtain ⟨result, hrun, rows, rfl, hanswers⟩ := Loop.run_of_variant
      (DFlashRun.Ok target stopTokens maxNewTokens prompts) (fun s => maxNewTokens - s.calls)
      (fun s hs => round_ok hdrafter hblock hs) (s := ⟨_, 0⟩) hrows hfuel
    exact ⟨rows, hrun, hanswers⟩

end Runs

end Mlxcel.Speculative
