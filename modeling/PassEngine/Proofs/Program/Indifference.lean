import PassEngine.Proofs.Program.Bookkeeping
import PassEngine.Proofs.Run.Agreement

/-!
# Settings that no rule mentions

Two programs whose engines agree differ in nothing but the engine, whatever calls are made on both.
Engines with one table agree when their settings have the same limit and give the same value to each
flag that a guard of the table mentions: the other flags, and whether progress is shown, have no
influence on what is done.
-/

namespace PassEngine

variable {ρ τ α : Type}

/-! ## The same under another engine -/

/-- The program with another engine. -/
def Program.withEngine (program : Program ρ τ) (engine : Engine ρ) : Program ρ τ :=
  { program with engine }

/-- The tour on the program with another engine. -/
def Tour.withEngine (tour : Tour ρ τ) (engine : Engine ρ) : Tour ρ τ :=
  { tour with program := tour.program.withEngine engine }

/-- What a part of a call comes to, with another engine in the program that it leaves. -/
def Tour.under (engine : Engine ρ) (result : Except Fault α × Tour ρ τ) : Except Fault α × Tour ρ τ :=
  (result.1, result.2.withEngine engine)

/-- The outcome with another engine in the program: verdict, visits, modules and what is done are
the same. -/
def ProgramOutcome.withEngine (outcome : ProgramOutcome ρ τ) (engine : Engine ρ) :
    ProgramOutcome ρ τ :=
  { outcome with program := outcome.program.withEngine engine }

/-- The call with another engine in the program that it leaves. -/
def Call.withEngine (call : Call ρ τ) (engine : Engine ρ) : Call ρ τ :=
  { call with outcome := call.outcome.withEngine engine }

/-! ## Parts of a call -/

namespace Tour

section

variable {other : Engine ρ} {first : Option (Except Fault Unit × Tour ρ τ)}
  {next next' : Tour ρ τ → Option (Except Fault α × Tour ρ τ)}

theorem andThen_under
    (h : ∀ tour, first = some (.ok (), tour) →
      next' (tour.withEngine other) = (next tour).map (under other)) :
    andThen (first.map (under other)) next' = (andThen first next).map (under other) := by
  cases first with
  | none => rfl
  | some result =>
      obtain ⟨verdict, tour⟩ := result
      cases verdict with
      | error fault => rfl
      | ok value => exact h tour rfl

end

variable [DecidableEq ρ] {suite : PassSuite ρ τ} {fuel : Nat} {id : ModuleId}
  {ids : List ModuleId} {tour next : Tour ρ τ} {verdict : Except Fault Unit} {other : Engine ρ}

theorem engine_of_visit (h : tour.visit suite fuel id = some (verdict, next)) :
    next.program.engine = tour.program.engine := by
  cases finished : tour.program.finished id with
  | true =>
      rw [visit_of_finished finished] at h
      cases h
      rfl
  | false =>
      obtain ⟨_, _, ⟨_, _, _, rfl⟩ | ⟨_, _, _, rfl⟩⟩ := attempt_of_visit finished h
      · rfl
      · rfl

theorem engine_of_visitAll (h : visitAll suite fuel ids tour = some (verdict, next)) :
    next.program.engine = tour.program.engine := by
  induction ids generalizing tour with
  | nil =>
      cases h
      rfl
  | cons id rest ih =>
      rw [visitAll_cons] at h
      rcases andThen_cases h with ⟨fault, middle, hvisit, hresult⟩ | ⟨middle, hvisit, hrest⟩
      · cases hresult
        exact engine_of_visit hvisit
      · rw [ih hrest, engine_of_visit hvisit]

theorem visit_withEngine (agree : tour.program.engine.Agree other) :
    (tour.withEngine other).visit suite fuel id =
      (tour.visit suite fuel id).map (under other) := by
  cases finished : tour.program.finished id with
  | true =>
      have finished' : (tour.withEngine other).program.finished id = true := finished
      rw [visit_of_finished finished, visit_of_finished finished']
      rfl
  | false =>
      have finished' : (tour.withEngine other).program.finished id = false := finished
      rw [visit_of_unfinished finished, visit_of_unfinished finished', Option.map_map,
        agree.attempt_eq]
      apply Option.map_congr
      intro attempt _
      simp only [Function.comp_apply]
      cases attempt.verdict with
      | error fault => rfl
      | ok report => rfl

theorem visitAll_withEngine (agree : tour.program.engine.Agree other) :
    visitAll suite fuel ids (tour.withEngine other) =
      (visitAll suite fuel ids tour).map (under other) := by
  induction ids generalizing tour with
  | nil => rfl
  | cons id rest ih =>
      rw [visitAll_cons, visitAll_cons, visit_withEngine agree]
      apply andThen_under
      intro middle hvisit
      exact ih ((engine_of_visit hvisit).symm ▸ agree)

theorem sweeps_withEngine {bound before : Nat} (agree : tour.program.engine.Agree other) :
    (tour.withEngine other).sweeps suite fuel bound before =
      (tour.sweeps suite fuel bound before).map (under other) := by
  induction bound generalizing before tour with
  | zero => rfl
  | succ bound ih =>
      have hsweep : (tour.withEngine other).sweep suite fuel =
          (tour.sweep suite fuel).map (under other) := visitAll_withEngine agree
      rw [sweeps_succ, sweeps_succ, hsweep]
      apply andThen_under
      intro swept hswept
      by_cases idle : swept.reports.length = tour.reports.length
      · rw [if_pos idle, if_pos (show (swept.withEngine other).reports.length =
          (tour.withEngine other).reports.length from idle)]
        rfl
      · rw [if_neg idle, if_neg (show ¬(swept.withEngine other).reports.length =
          (tour.withEngine other).reports.length from idle)]
        exact ih ((engine_of_visitAll hswept).symm ▸ agree)

end Tour

/-! ## Calls -/

namespace Program

variable [DecidableEq ρ] {suite : PassSuite ρ τ} {program last : Program ρ τ}
  {calls : List (Call ρ τ)} {other : Engine ρ}

theorem optimize_withEngine (agree : program.engine.Agree other) (suite : PassSuite ρ τ)
    (fuel : Nat) (entry : ModuleId) :
    (program.withEngine other).optimize suite fuel entry =
      (program.optimize suite fuel entry).map (·.withEngine other) := by
  have start : ({ program } : Tour ρ τ).program.engine.Agree other := agree
  have hvisit : ({ program := program.withEngine other } : Tour ρ τ).visit suite fuel entry =
      (({ program } : Tour ρ τ).visit suite fuel entry).map (Tour.under other) :=
    Tour.visit_withEngine start
  have hsweeps : ∀ tour, ({ program } : Tour ρ τ).visit suite fuel entry = some (.ok (), tour) →
      (tour.withEngine other).sweeps suite fuel fuel 0 =
        (tour.sweeps suite fuel fuel 0).map (Tour.under other) := fun tour entered =>
    Tour.sweeps_withEngine ((Tour.engine_of_visit entered).symm ▸ agree)
  rw [optimize_eq, optimize_eq, hvisit, Tour.andThen_under hsweeps, Option.map_map,
    Option.map_map]
  rfl

theorem History.engine_eq (h : History suite program calls last) :
    last.engine = program.engine := by
  induction h with
  | nil => rfl
  | cons _ _ called _ ih => rw [ih, engine_of_optimize called]

theorem History.withEngine (h : History suite program calls last)
    (agree : program.engine.Agree other) :
    History suite (program.withEngine other) (calls.map (·.withEngine other))
      (last.withEngine other) := by
  induction h with
  | nil => exact .nil
  | @cons program last outcome calls fuel entry called _ ih =>
      have called' : (program.withEngine other).optimize suite fuel entry =
          some (outcome.withEngine other) := by
        rw [optimize_withEngine agree, called]
        rfl
      exact .cons fuel entry called' (ih ((engine_of_optimize called).symm ▸ agree))

/-- Only the settings matter that rules mention. If the table and the limit are the same, and so is
each flag that a guard mentions, then any calls on a new program go alike: each has the same verdict
and visits and leaves the same modules, the same trees and the same done ones, or neither has an
answer. While a call is under way, whatever the engine is, no more modules are done than there are,
so that those to go can be counted wherever progress is shown. -/
theorem only_mentioned_settings_matter (fresh : program.done = [])
    (table : program.engine.table = other.table)
    (limit : program.engine.settings.refreshLimit = other.settings.refreshLimit)
    (flags : ∀ rule ∈ program.engine.table.rules, ∀ guard ∈ rule.guards,
      program.engine.settings.flag guard.flag = other.settings.flag guard.flag)
    (h : History suite program calls last) :
    History suite (program.withEngine other) (calls.map (·.withEngine other))
      (last.withEngine other) ∧
    ∀ fuel entry,
      (last.withEngine other).optimize suite fuel entry =
        (last.optimize suite fuel entry).map (·.withEngine other) ∧
      ∀ engine finished said tour,
        Tour.Completes suite fuel entry { program := last.withEngine engine } finished said tour →
        tour.program.done.length ≤ tour.program.store.size := by
  have agree := Engine.agree_of_flags table limit flags
  refine ⟨h.withEngine agree, ?_⟩
  intro fuel entry
  refine ⟨optimize_withEngine (h.engine_eq.symm ▸ agree) suite fuel entry, ?_⟩
  intro engine finished said tour completes
  obtain ⟨registered, nodup⟩ := h.sound (sound_of_fresh fresh)
  have sound : Sound (last.withEngine engine) := ⟨registered, nodup⟩
  exact (sound.advance completes.advances).balanced.within

end Program

/-! ## A table that mentions one flag -/

namespace Mentioning

/-- The program of `Draining`, but its rule has a guard. -/
def program : Program Unit (List String) where
  engine :=
    { table :=
        { rules := [.ofPredicate "new_code" [()] [.enabled .optimizeStringExec]]
          wellFormed := RuleTable.wellFormed_singleton ⟨by decide, by decide⟩ }
      settings := Settings.default
      valid := Settings.valid_default }
  store := Draining.program.store

/-- The same rule, and everything is set that it does not mention. -/
def other : Engine Unit where
  table := program.engine.table
  settings := { valuePropagation := true, moduleMode := true, showProgress := true }
  valid := by decide

end Mentioning

namespace Program

/-- A call that fails and the one that makes up for it, first with the settings that nobody chose. -/
theorem only_mentioned_settings_matter_mentioning :
    ∃ failed well,
      Mentioning.program.optimize Stumbling.suite 3 ⟨1⟩ = some failed ∧
      failed.program.optimize Stumbling.suite 3 ⟨1⟩ = some well ∧
      failed.verdict = .error (.passFailed "drain" "broken" "known") ∧
      well.reported = [⟨2⟩, ⟨3⟩, ⟨4⟩, ⟨5⟩] ∧
      History Stumbling.suite (Mentioning.program.withEngine Mentioning.other)
        [⟨⟨1⟩, failed.withEngine Mentioning.other⟩, ⟨⟨1⟩, well.withEngine Mentioning.other⟩]
        (well.program.withEngine Mentioning.other) ∧
      (well.program.withEngine Mentioning.other).optimize Stumbling.suite 1 ⟨9⟩ =
        (well.program.optimize Stumbling.suite 1 ⟨9⟩).map (·.withEngine Mentioning.other) := by
  have calls : (Mentioning.program.optimize Stumbling.suite 3 ⟨1⟩).bind (fun failed =>
      (failed.program.optimize Stumbling.suite 3 ⟨1⟩).map fun well =>
        (failed.verdict, well.reported)) =
      some (.error (.passFailed "drain" "broken" "known"), [⟨2⟩, ⟨3⟩, ⟨4⟩, ⟨5⟩]) := rfl
  obtain ⟨failed, hfailed, calls⟩ := Option.bind_eq_some_iff.mp calls
  obtain ⟨well, hwell, calls⟩ := Option.map_eq_some_iff.mp calls
  simp only [Prod.mk.injEq] at calls
  obtain ⟨hverdict, hreported⟩ := calls
  have flags : ∀ rule ∈ Mentioning.program.engine.table.rules, ∀ guard ∈ rule.guards,
      Mentioning.program.engine.settings.flag guard.flag =
        Mentioning.other.settings.flag guard.flag := by
    intro rule hrule guard hguard
    cases List.mem_singleton.mp hrule
    cases List.mem_singleton.mp hguard
    rfl
  have history : History Stumbling.suite Mentioning.program [⟨⟨1⟩, failed⟩, ⟨⟨1⟩, well⟩]
      well.program := .cons 3 ⟨1⟩ hfailed (.cons 3 ⟨1⟩ hwell .nil)
  have same : Mentioning.program.engine.table = Mentioning.other.table := rfl
  obtain ⟨alike, further⟩ := only_mentioned_settings_matter rfl same rfl flags history
  exact ⟨failed, well, hfailed, hwell, hverdict, hreported, alike, (further 1 ⟨9⟩).1⟩

end Program

end PassEngine
