import PassEngine.Proofs.Program.Worklist

/-!
# A call as a chain of attempts

Whatever its sweeps are, a call makes one attempt after the other, each on the module that is due:
the entry unless it is finished, and else the first unfinished module in the order of registration.
The call ends when no module is due, or with the first attempt that comes to a fault.
-/

namespace PassEngine

variable {ρ τ : Type}

/-! ## The module that is due -/

namespace Program

variable {program : Program ρ τ} {entry id : ModuleId}

/-- The module that a call attempts next. -/
def due (program : Program ρ τ) (entry : ModuleId) : Option ModuleId :=
  if program.finished entry then program.store.ids.find? fun id => !program.finished id
  else some entry

theorem finished_iff : program.finished id = true ↔ id ∈ program.done := by
  simp [finished]

theorem finished_below_succ {index : Nat}
    (below : ∀ id, id.index < index → program.finished id = true)
    (here : program.finished ⟨index⟩ = true) :
    ∀ id, id.index < index + 1 → program.finished id = true := by
  intro id hid
  rcases Nat.lt_succ_iff_lt_or_eq.mp hid with hlower | rfl
  · exact below id hlower
  · exact here

theorem due_of_first {index : Nat} (entered : program.finished entry = true)
    (below : ∀ id, id.index < index → program.finished id = true)
    (registered : index < program.store.size) (unfinished : program.finished ⟨index⟩ = false) :
    program.due entry = some ⟨index⟩ := by
  obtain ⟨count, hcount⟩ := Nat.exists_eq_add_of_lt registered
  have hids : program.store.ids =
      ModuleId.interval 0 index ++ ⟨index⟩ :: ModuleId.interval (index + 1) count := by
    rw [ModuleStore.ids_eq_interval, hcount, Nat.add_assoc, ModuleId.interval_add,
      ModuleId.interval_succ, Nat.zero_add]
  unfold due
  rw [if_pos entered, List.find?_eq_some_iff_append]
  refine ⟨by rw [unfinished]; rfl, _, _, hids, ?_⟩
  intro id hid
  have hlt := ModuleId.lt_of_mem_interval hid
  rw [below id (by omega)]
  rfl

theorem due_of_all (entered : program.finished entry = true)
    (all : ∀ id, id.index < program.store.size → program.finished id = true) :
    program.due entry = none := by
  unfold due
  rw [if_pos entered, List.find?_eq_none]
  intro id hid
  simp [all id (ModuleStore.mem_ids.mp hid)]

theorem finished_of_idle (h : program.due entry = none) :
    program.finished entry = true ∧
      ∀ id : ModuleId, id.index < program.store.size → program.finished id = true := by
  unfold due at h
  by_cases entered : program.finished entry = true
  · rw [if_pos entered, List.find?_eq_none] at h
    refine ⟨entered, ?_⟩
    intro id hid
    simpa using h id (ModuleStore.mem_ids.mpr hid)
  · rw [if_neg entered] at h
    cases h

theorem due_of_unentered (unentered : program.finished entry = false) :
    program.due entry = some entry := by
  unfold due
  rw [if_neg (by simp [unentered])]

/-- A module that is due is unfinished; if it is not the entry, it is registered, and the entry and
everything that was registered before it are finished. -/
theorem due_spec (h : program.due entry = some id) :
    program.finished id = false ∧
      (id ≠ entry → program.finished entry = true ∧ id.index < program.store.size ∧
        ∀ lower : ModuleId, lower.index < id.index → program.finished lower = true) := by
  unfold due at h
  by_cases entered : program.finished entry = true
  · rw [if_pos entered, List.find?_eq_some_iff_append] at h
    obtain ⟨unfinished, first, rest, hids, before⟩ := h
    have hid : id ∈ program.store.ids := by
      rw [hids]
      exact List.mem_append_right first List.mem_cons_self
    have registered := ModuleStore.mem_ids.mp hid
    refine ⟨by simpa using unfinished, fun _ => ⟨entered, registered, ?_⟩⟩
    intro lower hlower
    have hmem : lower ∈ program.store.ids :=
      ModuleStore.mem_ids.mpr (Nat.lt_trans hlower registered)
    have sorted : program.store.ids.Pairwise fun first second => first.index < second.index :=
      List.Pairwise.map ModuleId.mk (fun _ _ hlt => hlt) List.pairwise_lt_range
    rw [hids] at hmem sorted
    rcases List.mem_append.mp hmem with hfirst | hrest
    · simpa using before lower hfirst
    · have hafter := (List.pairwise_cons.mp (List.pairwise_append.mp sorted).2.1).1
      rcases List.mem_cons.mp hrest with rfl | hrest
      · exact absurd hlower (Nat.lt_irrefl _)
      · exact absurd hlower (Nat.lt_asymm (hafter lower hrest))
  · rw [if_neg entered] at h
    cases h
    exact ⟨Bool.eq_false_iff.mpr entered, fun hne => absurd rfl hne⟩

theorem not_mem_done_of_due (h : program.due entry = some id) : id ∉ program.done := by
  intro hdone
  have unfinished := (due_spec h).1
  rw [finished_iff.mpr hdone] at unfinished
  cases unfinished

end Program

/-! ## Attempts in a row -/

namespace Tour

variable [DecidableEq ρ]

/-- Attempts in a row, each on the module that is due, all of which go well; with the modules that
are finished, in order, and with what the passes say and ask on the way. -/
inductive Completes (suite : PassSuite ρ τ) (fuel : Nat) (entry : ModuleId) :
    Tour ρ τ → List ModuleId → List (Exchange τ) → Tour ρ τ → Prop where
  | nil {tour} : Completes suite fuel entry tour [] [] tour
  | cons {tour last id attempt report finished said}
      (due : tour.program.due entry = some id)
      (attempted : tour.program.engine.attempt suite fuel id tour.program.store = some attempt)
      (ok : attempt.verdict = .ok report)
      (rest : Completes suite fuel entry (tour.complete id attempt report) finished said last) :
      Completes suite fuel entry tour (id :: finished)
        (tour.program.engine.exchangesAt suite fuel id tour.program.store ++ said) last

/-- The attempt on the module that is due comes to a fault. -/
structure Fails (suite : PassSuite ρ τ) (fuel : Nat) (entry : ModuleId) (tour : Tour ρ τ)
    (failing : ModuleId) (attempt : Attempt ρ τ) (fault : Fault) : Prop where
  due : tour.program.due entry = some failing
  attempted : tour.program.engine.attempt suite fuel failing tour.program.store = some attempt
  verdict : attempt.verdict = .error fault

/-- How attempts in a row end: nothing is due any more, or one comes to a fault. -/
inductive Ends (suite : PassSuite ρ τ) (fuel : Nat) (entry : ModuleId) (tour : Tour ρ τ) :
    Except Fault Unit → Tour ρ τ → Prop where
  | well {finished said last} (completes : Completes suite fuel entry tour finished said last)
      (idle : last.program.due entry = none) : Ends suite fuel entry tour (.ok ()) last
  | badly {finished said last failing attempt fault}
      (completes : Completes suite fuel entry tour finished said last)
      (fails : Fails suite fuel entry last failing attempt fault) :
      Ends suite fuel entry tour (.error fault) (last.abandon attempt)

variable {suite : PassSuite ρ τ} {fuel index : Nat} {entry id : ModuleId} {tour last : Tour ρ τ}
  {finished : List ModuleId} {said : List (Exchange τ)} {verdict : Except Fault Unit}

theorem Ends.cons {attempt : Attempt ρ τ} {report : ModuleReport}
    (due : tour.program.due entry = some id)
    (attempted : tour.program.engine.attempt suite fuel id tour.program.store = some attempt)
    (ok : attempt.verdict = .ok report)
    (h : Ends suite fuel entry (tour.complete id attempt report) verdict last) :
    Ends suite fuel entry tour verdict last := by
  cases h with
  | well completes idle => exact .well (.cons due attempted ok completes) idle
  | badly completes fails => exact .badly (.cons due attempted ok completes) fails

omit [DecidableEq ρ] in
theorem finished_complete (attempt : Attempt ρ τ) (report : ModuleReport) {other : ModuleId} :
    (tour.complete id attempt report).program.finished other = true ↔
      other = id ∨ tour.program.finished other = true := by
  simp [complete, Program.finished]

theorem ends_of_scan {bound : Nat} (entered : tour.program.finished entry = true)
    (below : ∀ id, id.index < index → tour.program.finished id = true)
    (h : scan suite fuel bound index tour = some (verdict, last)) :
    Ends suite fuel entry tour verdict last := by
  induction bound generalizing index tour with
  | zero => cases h
  | succ bound ih =>
      rcases Nat.lt_or_ge index tour.program.store.size with hlt | hge
      · rw [scan_of_lt_size _ hlt] at h
        by_cases here : tour.program.finished ⟨index⟩ = true
        · rw [visit_of_finished here, andThen_ok] at h
          exact ih entered (Program.finished_below_succ below here) h
        -- all below the position is finished, so that the module at the position is due
        · have unfinished : tour.program.finished ⟨index⟩ = false := Bool.eq_false_iff.mpr here
          have due := Program.due_of_first entered below hlt unfinished
          rcases andThen_cases h with ⟨fault, middle, hvisit, hresult⟩ | ⟨middle, hvisit, hrest⟩
          · cases hresult
            obtain ⟨attempt, attempted, failed, rfl⟩ := abandoned_of_visit unfinished hvisit
            exact .badly .nil ⟨due, attempted, failed⟩
          · obtain ⟨attempt, report, attempted, ok, rfl⟩ := completed_of_visit unfinished hvisit
            refine Ends.cons due attempted ok (ih ?_ (Program.finished_below_succ ?_ ?_) hrest)
            · exact (finished_complete attempt report).mpr (Or.inr entered)
            · intro id hid
              exact (finished_complete attempt report).mpr (Or.inr (below id hid))
            · exact (finished_complete attempt report).mpr (Or.inl rfl)
      · rw [scan_of_size_le _ hge] at h
        cases h
        refine .well .nil (Program.due_of_all entered ?_)
        intro id hid
        exact below id (Nat.lt_of_lt_of_le hid hge)

/-! ## What attempts in a row leave -/

theorem Completes.engine_eq (h : Completes suite fuel entry tour finished said last) :
    last.program.engine = tour.program.engine := by
  induction h with
  | nil => rfl
  | cons _ _ _ _ ih => exact ih

theorem Completes.done_eq (h : Completes suite fuel entry tour finished said last) :
    last.program.done = finished.reverse ++ tour.program.done := by
  induction h with
  | nil => rfl
  | cons _ _ _ _ ih =>
      rw [ih, List.reverse_cons, List.append_assoc]
      rfl

theorem Completes.done_subset (h : Completes suite fuel entry tour finished said last) :
    tour.program.done ⊆ last.program.done := by
  rw [h.done_eq]
  exact List.subset_append_right _ _

theorem Completes.grows (h : Completes suite fuel entry tour finished said last) :
    tour.program.store.Grows finished said last.program.store := by
  induction h with
  | nil => exact ModuleStore.Grows.refl _ []
  | cons _ attempted _ _ ih => exact (Engine.grows_attempt attempted).trans ih

/-- What is finished on the way is registered and was not finished before. -/
theorem Completes.advances (h : Completes suite fuel entry tour finished said last) :
    Advances tour finished.reverse last := by
  induction h with
  | nil => exact Advances.refl _
  | cons due attempted ok _ ih =>
      rw [List.reverse_cons]
      exact (advances_complete (Program.due_spec due).1 attempted ok).trans ih

theorem Completes.visits_suffix (h : Completes suite fuel entry tour finished said last) :
    tour.visits <:+ last.visits := by
  induction h with
  | nil => exact List.suffix_rfl
  | cons _ _ _ _ ih => exact (List.suffix_cons _ _).trans ih

theorem Ends.visits_suffix (h : Ends suite fuel entry tour verdict last) :
    tour.visits <:+ last.visits := by
  cases h with
  | well completes _ => exact completes.visits_suffix
  | badly completes _ => exact completes.visits_suffix.trans (List.suffix_cons _ _)

theorem Ends.done_subset (h : Ends suite fuel entry tour verdict last) :
    tour.program.done ⊆ last.program.done := by
  cases h with
  | well completes _ => exact completes.done_subset
  | badly completes _ => exact completes.done_subset

theorem Ends.engine_eq (h : Ends suite fuel entry tour verdict last) :
    last.program.engine = tour.program.engine := by
  cases h with
  | well completes _ => exact completes.engine_eq
  | badly completes _ => exact completes.engine_eq

theorem Ends.first (due : tour.program.due entry = some id)
    (h : Ends suite fuel entry tour verdict last) :
    ∃ attempt, tour.program.engine.attempt suite fuel id tour.program.store = some attempt ∧
      ((∃ fault, attempt.verdict = .error fault ∧ verdict = .error fault ∧
          last = tour.abandon attempt) ∨
        ∃ report, attempt.verdict = .ok report ∧
          Ends suite fuel entry (tour.complete id attempt report) verdict last) := by
  cases h with
  | well completes idle =>
      cases completes with
      | nil =>
          rw [idle] at due
          cases due
      | cons due' attempted ok rest =>
          cases due.symm.trans due'
          exact ⟨_, attempted, Or.inr ⟨_, ok, .well rest idle⟩⟩
  | badly completes fails =>
      cases completes with
      | nil =>
          cases due.symm.trans fails.due
          exact ⟨_, fails.attempted, Or.inl ⟨_, fails.verdict, rfl, rfl⟩⟩
      | cons due' attempted ok rest =>
          cases due.symm.trans due'
          exact ⟨_, attempted, Or.inr ⟨_, ok, .badly rest fails⟩⟩

end Tour

namespace Program

variable [DecidableEq ρ] {suite : PassSuite ρ τ} {fuel : Nat} {program : Program ρ τ}
  {entry id : ModuleId} {outcome : ProgramOutcome ρ τ}

theorem ends_of_optimize (h : program.optimize suite fuel entry = some outcome) :
    ∃ count last, outcome = Tour.conclude (count, last) ∧
      Tour.Ends suite fuel entry { program } (count.map fun _ => ()) last := by
  rw [optimize_eq] at h
  obtain ⟨⟨count, last⟩, hcall, rfl⟩ := Option.map_eq_some_iff.mp h
  refine ⟨count, last, rfl, ?_⟩
  by_cases entered : program.finished entry = true
  · rw [Tour.visit_of_finished entered, Tour.andThen_ok] at hcall
    obtain ⟨steps, hscan⟩ :=
      Tour.scan_of_sweeps hcall (finished_below_zero { program }) (Nat.zero_le _)
    exact Tour.ends_of_scan entered (finished_below_zero { program }) hscan
  · have unfinished : program.finished entry = false := Bool.eq_false_iff.mpr entered
    have due := due_of_unentered unfinished
    rcases Tour.andThen_cases hcall with ⟨fault, tour, hvisit, hresult⟩ | ⟨tour, hvisit, hsweeps⟩
    · cases hresult
      obtain ⟨attempt, attempted, failed, rfl⟩ := Tour.abandoned_of_visit unfinished hvisit
      exact .badly .nil ⟨due, attempted, failed⟩
    · obtain ⟨attempt, report, attempted, ok, rfl⟩ := Tour.completed_of_visit unfinished hvisit
      obtain ⟨steps, hscan⟩ :=
        Tour.scan_of_sweeps hsweeps (finished_below_zero _) (Nat.zero_le _)
      refine Tour.Ends.cons due attempted ok ?_
      exact Tour.ends_of_scan ((Tour.finished_complete attempt report).mpr (Or.inl rfl))
        (finished_below_zero _) hscan

/-- The attempts of a call lead to the program that it leaves, and its visits are theirs. -/
theorem exists_ends_of_optimize (h : program.optimize suite fuel entry = some outcome) :
    ∃ verdict last, Tour.Ends suite fuel entry { program } verdict last ∧
      outcome.program = last.program ∧ outcome.visits = last.visits.reverse := by
  obtain ⟨count, last, rfl, ends⟩ := ends_of_optimize h
  exact ⟨_, last, ends, rfl, rfl⟩

theorem engine_of_optimize (h : program.optimize suite fuel entry = some outcome) :
    outcome.program.engine = program.engine := by
  obtain ⟨_, last, ends, hprogram, _⟩ := exists_ends_of_optimize h
  rw [hprogram]
  exact ends.engine_eq

theorem first_attempt (due : program.due entry = some id)
    (h : program.optimize suite fuel entry = some outcome) :
    ∃ attempt, program.engine.attempt suite fuel id program.store = some attempt ∧
      outcome.visits.head?.map (·.transcript) = some attempt.transcript ∧
      ∀ report, attempt.verdict = .ok report → id ∈ outcome.program.done := by
  obtain ⟨count, last, rfl, ends⟩ := ends_of_optimize h
  obtain ⟨attempt, attempted, ⟨fault, failed, _, rfl⟩ | ⟨report, ok, rest⟩⟩ :=
    Tour.Ends.first due ends
  · refine ⟨attempt, attempted, rfl, ?_⟩
    intro report ok
    cases failed.symm.trans ok
  · refine ⟨attempt, attempted, ?_, fun _ _ => rest.done_subset List.mem_cons_self⟩
    obtain ⟨later, hlater⟩ := rest.visits_suffix
    unfold Tour.conclude
    rw [← hlater, List.reverse_append]
    rfl

theorem optimize_of_fault {attempt : Attempt ρ τ} {fault : Fault}
    (due : program.due entry = some id) (positive : 0 < fuel)
    (attempted : program.engine.attempt suite fuel id program.store = some attempt)
    (failed : attempt.verdict = .error fault) :
    program.optimize suite fuel entry =
      some (Tour.conclude (.error fault, ({ program } : Tour ρ τ).abandon attempt)) := by
  obtain ⟨unfinished, passed⟩ := due_spec due
  have hvisit : ({ program } : Tour ρ τ).visit suite fuel id =
      some (.error fault, ({ program } : Tour ρ τ).abandon attempt) := by
    rw [Tour.visit_of_unfinished unfinished, attempted, Option.map_some]
    simp only [failed]
  rw [optimize_eq]
  by_cases hentry : id = entry
  · rw [← hentry, hvisit]
    rfl
  · obtain ⟨entered, registered, below⟩ := passed hentry
    obtain ⟨count, hcount⟩ := Nat.exists_eq_add_of_lt registered
    have hwidth : program.store.size - id.index = count + 1 := by omega
    have hsweep : ({ program } : Tour ρ τ).sweep suite fuel =
        some (.error fault, ({ program } : Tour ρ τ).abandon attempt) := by
      rw [Tour.sweep_eq below (Nat.le_of_lt registered), hwidth, ModuleId.interval_succ,
        Tour.visitAll_cons, hvisit]
      rfl
    obtain ⟨bound, rfl⟩ := Nat.exists_eq_succ_of_ne_zero (Nat.ne_of_gt positive)
    rw [Tour.visit_of_finished entered, Tour.andThen_ok, Tour.sweeps_succ, hsweep]
    rfl

end Program

end PassEngine
