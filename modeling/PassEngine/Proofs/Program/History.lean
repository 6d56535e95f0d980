import PassEngine.Proofs.Program.Failure

/-!
# Calls in a row

A program can be called again and again, with any entries, and whether a call ends well or comes to
a fault. What is finished is finished for good: no later call works on it, changes its slot or
reports it again. After a call that ended well nothing is left to do, so that the calls behind it
change nothing.
-/

namespace PassEngine

variable {ρ τ : Type}

/-- A call: its entry, and what it came to. -/
structure Call (ρ τ : Type) where
  entry : ModuleId
  outcome : ProgramOutcome ρ τ

namespace ProgramOutcome

/-- The modules that a call reports, in order. A call that came to a fault reports none. -/
def reported (outcome : ProgramOutcome ρ τ) : List ModuleId :=
  match outcome.verdict with
  | .ok report => report.modules.map (·.subject.id)
  | .error _ => []

/-- The modules that passes worked on in a call, in order. -/
def worked (outcome : ProgramOutcome ρ τ) : List ModuleId :=
  outcome.visits.filterMap fun visit => visit.transcript.map (·.subject.id)

theorem mem_worked {outcome : ProgramOutcome ρ τ} {id : ModuleId} :
    id ∈ outcome.worked ↔ ∃ visit ∈ outcome.visits, ∃ transcript,
      visit.transcript = some transcript ∧ transcript.subject.id = id := by
  simp [worked]

end ProgramOutcome

/-! ## One call -/

namespace Tour

variable [DecidableEq ρ] {suite : PassSuite ρ τ} {fuel : Nat} {entry : ModuleId}
  {tour last : Tour ρ τ} {finished : List ModuleId} {said : List (Exchange τ)}

theorem Completes.worked (h : Completes suite fuel entry tour finished said last)
    {visit : Visit ρ} (hvisit : visit ∈ last.visits) {transcript : Transcript ρ}
    (ran : visit.transcript = some transcript) :
    transcript.subject.id ∈ finished ∨ visit ∈ tour.visits := by
  induction h with
  | nil => exact Or.inr hvisit
  | cons _ attempted _ _ ih =>
      rcases ih hvisit with hlater | hbefore
      · exact Or.inl (List.mem_cons_of_mem _ hlater)
      · rcases List.mem_cons.mp hbefore with rfl | hbefore
        · rw [Engine.subject_of_attempt attempted ran]
          exact Or.inl List.mem_cons_self
        · exact Or.inr hbefore

end Tour

namespace Program

/-- What calls do to a program that has finished some modules: these are out of reach, and what is
reported is new among the finished ones. -/
structure Keeps (program : Program ρ τ) (worked reported : List ModuleId) (after : Program ρ τ) :
    Prop where
  done : program.done <:+ after.done
  slots : ∀ id ∈ program.done, after.store.slot? id = program.store.slot? id
  worked : ∀ id ∈ program.done, id ∉ worked
  fresh : ∀ id ∈ reported, id ∈ after.done ∧ id ∉ program.done
  nodup : reported.Nodup

variable {program middle after : Program ρ τ} {worked reported later next : List ModuleId}

theorem Keeps.refl (program : Program ρ τ) : Keeps program [] [] program where
  done := List.suffix_rfl
  slots := fun _ _ => rfl
  worked := fun _ _ => List.not_mem_nil
  fresh := by simp
  nodup := List.nodup_nil

theorem Keeps.trans (h : Keeps program worked reported middle)
    (h' : Keeps middle later next after) :
    Keeps program (worked ++ later) (reported ++ next) after where
  done := h.done.trans h'.done
  slots := by
    intro id hid
    rw [h'.slots id (h.done.subset hid), h.slots id hid]
  worked := by
    intro id hid hworked
    rcases List.mem_append.mp hworked with hfirst | hlater
    · exact h.worked id hid hfirst
    · exact h'.worked id (h.done.subset hid) hlater
  fresh := by
    intro id hid
    rcases List.mem_append.mp hid with hfirst | hnext
    · obtain ⟨hdone, hnew⟩ := h.fresh id hfirst
      exact ⟨h'.done.subset hdone, hnew⟩
    · obtain ⟨hdone, hnew⟩ := h'.fresh id hnext
      exact ⟨hdone, fun hold => hnew (h.done.subset hold)⟩
  nodup := by
    rw [List.nodup_append]
    refine ⟨h.nodup, h'.nodup, ?_⟩
    rintro id hfirst other hnext rfl
    exact (h'.fresh id hnext).2 (h.fresh id hfirst).1

theorem Keeps.weaken (h : Keeps program worked reported after) (fewer : later ⊆ worked)
    (shorter : next.Sublist reported) : Keeps program later next after where
  done := h.done
  slots := h.slots
  worked := fun id hid hlater => h.worked id hid (fewer hlater)
  fresh := fun id hid => h.fresh id (shorter.subset hid)
  nodup := h.nodup.sublist shorter

variable [DecidableEq ρ] {suite : PassSuite ρ τ} {fuel : Nat} {entry : ModuleId}
  {outcome : ProgramOutcome ρ τ}

/-- Modules that are due in a row are finished on the way, and nothing else is worked on. -/
theorem keeps_of_completes {finished : List ModuleId} {said : List (Exchange τ)} {last : Tour ρ τ}
    (sound : Sound program)
    (h : Tour.Completes suite fuel entry { program } finished said last) :
    Keeps program finished finished last.program where
  done := ⟨finished.reverse, h.done_eq.symm⟩
  slots := by
    intro id hid
    have aside : id ∉ finished := fun hfinished =>
      h.advances.unfinished id (List.mem_reverse.mpr hfinished) hid
    exact h.grows.kept id aside (sound.registered id hid)
  worked := fun id hid hfinished =>
    h.advances.unfinished id (List.mem_reverse.mpr hfinished) hid
  fresh := by
    intro id hid
    refine ⟨?_, h.advances.unfinished id (List.mem_reverse.mpr hid)⟩
    rw [h.done_eq]
    exact List.mem_append_left _ (List.mem_reverse.mpr hid)
  nodup := (List.reverse_perm finished).nodup_iff.mp h.advances.nodup

theorem keeps_of_fails {tour : Tour ρ τ} {failing : ModuleId} {attempt : Attempt ρ τ}
    {fault : Fault} (sound : Sound tour.program)
    (h : Tour.Fails suite fuel entry tour failing attempt fault) :
    Keeps tour.program [failing] [] (tour.abandon attempt).program where
  done := List.suffix_rfl
  slots := by
    intro id hid
    refine (Engine.grows_attempt h.attempted).kept id ?_ (sound.registered id hid)
    exact fun hfailing => not_mem_done_of_due h.due (List.mem_singleton.mp hfailing ▸ hid)
  worked := fun id hid hfailing =>
    not_mem_done_of_due h.due (List.mem_singleton.mp hfailing ▸ hid)
  fresh := by simp
  nodup := List.nodup_nil

theorem keeps_optimize (sound : Sound program)
    (h : program.optimize suite fuel entry = some outcome) :
    Keeps program outcome.worked outcome.reported outcome.program := by
  obtain ⟨count, last, rfl, ends⟩ := ends_of_optimize h
  cases count with
  | ok sweeps =>
      cases ends with
      | @well finished _ _ completes _ =>
          have hreported : (Tour.conclude (.ok sweeps, last)).reported = finished := by
            change last.reports.reverse.map (·.subject.id) = finished
            rw [List.map_reverse, completes.advances.reported, List.map_nil, List.append_nil,
              List.reverse_reverse]
          rw [hreported]
          refine (keeps_of_completes sound completes).weaken ?_ (List.Sublist.refl _)
          intro id hid
          obtain ⟨visit, hvisit, transcript, ran, rfl⟩ := ProgramOutcome.mem_worked.mp hid
          exact (completes.worked (List.mem_reverse.mp hvisit) ran).resolve_right
            List.not_mem_nil
  | error fault =>
      cases ends with
      | @badly finished _ tour failing attempt _ completes fails =>
          have soundly : Sound tour.program := Sound.advance sound completes.advances
          have keeps := (keeps_of_completes sound completes).trans (keeps_of_fails soundly fails)
          refine keeps.weaken ?_ (List.nil_sublist _)
          intro id hid
          obtain ⟨visit, hvisit, transcript, ran, rfl⟩ := ProgramOutcome.mem_worked.mp hid
          rcases List.mem_cons.mp (List.mem_reverse.mp hvisit) with rfl | hbefore
          · rw [Engine.subject_of_attempt fails.attempted ran]
            exact List.mem_append_right _ (List.mem_singleton_self failing)
          · exact List.mem_append_left _
              ((completes.worked hbefore ran).resolve_right List.not_mem_nil)

/-! ## Calls that find nothing to do -/

/-- When all modules are finished, a call changes nothing, whatever its entry is. -/
theorem optimize_of_settled (sound : Sound program)
    (settled : ∀ id : ModuleId, id.index < program.store.size → program.finished id = true)
    (suite : PassSuite ρ τ) (entry : ModuleId) (positive : 0 < fuel) :
    program.optimize suite fuel entry = some
      (if entry.index < program.store.size then ⟨.ok ⟨[], 1⟩, program, []⟩
      else ⟨.error (.unknownModule entry), program, [⟨none, none⟩]⟩) := by
  rw [optimize_eq]
  by_cases registered : entry.index < program.store.size
  · obtain ⟨bound, rfl⟩ := Nat.exists_eq_succ_of_ne_zero (Nat.ne_of_gt positive)
    have idle : ({ program } : Tour ρ τ).sweep suite (bound + 1) =
        some (.ok (), { program }) :=
      Tour.visitAll_of_finished fun id hid => settled id (ModuleStore.mem_ids.mp hid)
    rw [Tour.visit_of_finished (settled entry registered), Tour.andThen_ok, Tour.sweeps_succ,
      idle, Tour.andThen_ok, if_pos rfl, if_pos registered]
    rfl
  · have unfinished : program.finished entry = false := by
      rw [Bool.eq_false_iff, ne_eq, finished_iff]
      exact fun hdone => registered (sound.registered entry hdone)
    have unknown : program.store.slot? entry = none := by
      rw [Option.eq_none_iff_forall_ne_some]
      exact fun slot hslot => registered (ModuleStore.lt_size_iff.mpr ⟨slot, hslot⟩)
    rw [Tour.visit_of_unfinished unfinished, Engine.attempt_eq, unknown, if_neg registered]
    rfl

/-! ## Calls in a row -/

/-- Calls in a row, each on the program that the one before it left. -/
inductive History (suite : PassSuite ρ τ) :
    Program ρ τ → List (Call ρ τ) → Program ρ τ → Prop where
  | nil {program : Program ρ τ} : History suite program [] program
  | cons {program last : Program ρ τ} {outcome : ProgramOutcome ρ τ} {calls : List (Call ρ τ)}
      (fuel : Nat) (entry : ModuleId)
      (called : program.optimize suite fuel entry = some outcome)
      (rest : History suite outcome.program calls last) :
      History suite program (⟨entry, outcome⟩ :: calls) last

variable {calls : List (Call ρ τ)} {last : Program ρ τ}

theorem History.sound (h : History suite program calls last) (sound : Sound program) :
    Sound last := by
  induction h with
  | nil => exact sound
  | cons _ _ called _ ih => exact ih (sound.optimize called)

theorem History.keeps (h : History suite program calls last) (sound : Sound program) :
    Keeps program (calls.flatMap (·.outcome.worked)) (calls.flatMap (·.outcome.reported)) last := by
  induction h with
  | nil => exact Keeps.refl _
  | cons _ _ called _ ih => exact (keeps_optimize sound called).trans (ih (sound.optimize called))

/-- Calls on a program with nothing to do leave it as it is. -/
theorem History.eq_of_settled (h : History suite program calls last) (sound : Sound program)
    (settled : ∀ id : ModuleId, id.index < program.store.size → program.finished id = true) :
    last = program := by
  induction h with
  | nil => rfl
  | @cons program last outcome calls fuel entry called _ ih =>
      have same : outcome.program = program := by
        have answer := optimize_of_settled sound settled suite entry (Nat.succ_pos fuel)
        rw [optimize_of_le (Nat.le_succ fuel) called] at answer
        rw [Option.some.inj answer]
        split
        · rfl
        · rfl
      rw [same] at ih
      exact ih sound settled

theorem History.settled_of_ok (h : History suite program calls last) (sound : Sound program)
    {call : Call ρ τ} (hcall : call ∈ calls) {report : ProgramReport}
    (ok : call.outcome.verdict = .ok report) :
    ∀ id : ModuleId, id.index < last.store.size → last.finished id = true := by
  induction h with
  | nil => cases hcall
  | cons fuel entry called rest ih =>
      rcases List.mem_cons.mp hcall with rfl | hlater
      · have settled := (modules_of_optimize called ok).1
        have same := rest.eq_of_settled (sound.optimize called) fun id hid =>
          settled id (ModuleStore.mem_ids.mpr hid)
        intro id hid
        rw [same] at hid ⊢
        exact settled id (ModuleStore.mem_ids.mpr hid)
      · exact ih (sound.optimize called) hlater

/-- What is finished stays finished. Later calls work on other modules only, leave its slot alone,
and report nothing twice; after a call that ended well each further one ends at once and changes
nothing. -/
theorem finished_for_good (reachable : Reachable suite program)
    (h : History suite program calls last) :
    program.done <:+ last.done ∧
      (∀ id ∈ program.done, (∀ call ∈ calls, id ∉ call.outcome.worked) ∧
        last.store.slot? id = program.store.slot? id) ∧
      (∀ id ∈ program.done, ∀ call ∈ calls, id ∉ call.outcome.reported) ∧
      (calls.flatMap (·.outcome.reported)).Nodup ∧
      ∀ call ∈ calls, ∀ report, call.outcome.verdict = .ok report →
        ∀ fuel entry, 0 < fuel → ∃ outcome,
          last.optimize suite fuel entry = some outcome ∧ outcome.program = last ∧
          outcome.verdict = if entry.index < last.store.size then .ok ⟨[], 1⟩
            else .error (.unknownModule entry) := by
  have sound := reachable.sound
  have keeps := h.keeps sound
  refine ⟨keeps.done, ?_, ?_, keeps.nodup, ?_⟩
  · intro id hid
    refine ⟨?_, keeps.slots id hid⟩
    intro call hcall hworked
    exact keeps.worked id hid (List.mem_flatMap.mpr ⟨call, hcall, hworked⟩)
  · intro id hid call hcall hreported
    exact (keeps.fresh id (List.mem_flatMap.mpr ⟨call, hcall, hreported⟩)).2 hid
  · intro call hcall report ok fuel entry positive
    have settled := h.settled_of_ok sound hcall ok
    refine ⟨_, optimize_of_settled (h.sound sound) settled suite entry positive, ?_, ?_⟩
    · split
      · rfl
      · rfl
    · split
      · rfl
      · rfl

end Program

/-! ## A module that fails once -/

namespace Stumbling

/-- The pass of `Draining`, but what it stumbles over is crossed off as well. -/
def suite : PassSuite Unit (List String) where
  name _ := "drain"
  apply _ subject tree :=
    (Draining.drain subject.name tree).bind fun result => .done (result.1, result.2.tail)

end Stumbling

namespace Program

/-- The first call fails at the third module, with the entry and the first module finished; the
second one finishes the rest, and a call with an unknown entry comes behind it. -/
theorem finished_for_good_stumbling :
    ∃ failed well unknown,
      Draining.program.optimize Stumbling.suite 3 ⟨1⟩ = some failed ∧
      Reachable Stumbling.suite failed.program ∧ failed.program.done = [⟨0⟩, ⟨1⟩] ∧
      History Stumbling.suite failed.program [⟨⟨1⟩, well⟩, ⟨⟨9⟩, unknown⟩] unknown.program ∧
      well.reported = [⟨2⟩, ⟨3⟩, ⟨4⟩, ⟨5⟩] ∧
      unknown.program.store.slot? ⟨0⟩ = failed.program.store.slot? ⟨0⟩ ∧
      (∃ report, well.verdict = .ok report) ∧
      ∃ outcome, unknown.program.optimize Stumbling.suite 1 ⟨2⟩ = some outcome ∧
        outcome.program = unknown.program := by
  have calls : (Draining.program.optimize Stumbling.suite 3 ⟨1⟩).bind (fun failed =>
      (failed.program.optimize Stumbling.suite 3 ⟨1⟩).bind fun well =>
        (well.program.optimize Stumbling.suite 3 ⟨9⟩).map fun _ =>
          (failed.program.done, well.reported, well.verdict.toOption.isSome)) =
      some ([⟨0⟩, ⟨1⟩], [⟨2⟩, ⟨3⟩, ⟨4⟩, ⟨5⟩], true) := rfl
  obtain ⟨failed, hfailed, calls⟩ := Option.bind_eq_some_iff.mp calls
  obtain ⟨well, hwell, calls⟩ := Option.bind_eq_some_iff.mp calls
  obtain ⟨unknown, hunknown, calls⟩ := Option.map_eq_some_iff.mp calls
  simp only [Prod.mk.injEq] at calls
  obtain ⟨hdone, hreported, hverdict⟩ := calls
  obtain ⟨report, ok⟩ : ∃ report, well.verdict = .ok report := by
    cases h : well.verdict with
    | error fault =>
        rw [h] at hverdict
        cases hverdict
    | ok report => exact ⟨report, rfl⟩
  have reachable : Reachable Stumbling.suite failed.program :=
    .call 3 ⟨1⟩ (.fresh _ _) hfailed
  have history : History Stumbling.suite failed.program [⟨⟨1⟩, well⟩, ⟨⟨9⟩, unknown⟩]
      unknown.program := .cons 3 ⟨1⟩ hwell (.cons 3 ⟨9⟩ hunknown .nil)
  obtain ⟨_, kept, _, _, idle⟩ := finished_for_good reachable history
  obtain ⟨outcome, houtcome, hprogram, _⟩ :=
    idle _ List.mem_cons_self report ok 1 ⟨2⟩ Nat.one_pos
  have hfirst : (⟨0⟩ : ModuleId) ∈ failed.program.done := by
    rw [hdone]
    exact List.mem_cons_self
  exact ⟨failed, well, unknown, hfailed, reachable, hdone, history, hreported,
    (kept ⟨0⟩ hfirst).2, ⟨report, ok⟩, outcome, houtcome, hprogram⟩

end Program

end PassEngine
