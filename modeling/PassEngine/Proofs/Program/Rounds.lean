import PassEngine.Proofs.Program.Worklist

/-!
# Sweep by sweep

Each completed sweep finishes some modules, and the sweeps go on as long as they finish any. A sweep
goes through the modules that are registered when it begins, so that what it finishes was registered
by then.
-/

namespace PassEngine

variable {ρ τ : Type} [DecidableEq ρ]

namespace Tour

/-- Sweeps in a row, with the modules that each completed sweep finished, in order. They end with a
sweep that finishes nothing, or with one that comes to a fault and is not completed. -/
inductive Rounds (suite : PassSuite ρ τ) (fuel : Nat) :
    Tour ρ τ → List (List ModuleId) → Except Fault Unit → Tour ρ τ → Prop where
  | idle {tour} (swept : tour.sweep suite fuel = some (.ok (), tour)) :
      Rounds suite fuel tour [[]] (.ok ()) tour
  | fault {tour last fault} (swept : tour.sweep suite fuel = some (.error fault, last)) :
      Rounds suite fuel tour [] (.error fault) last
  | round {tour next last round rounds verdict}
      (swept : tour.sweep suite fuel = some (.ok (), next))
      (finished : next.program.done = round.reverse ++ tour.program.done) (busy : round ≠ [])
      (rest : Rounds suite fuel next rounds verdict last) :
      Rounds suite fuel tour (round :: rounds) verdict last

variable {suite : PassSuite ρ τ} {fuel : Nat} {tour next last : Tour ρ τ}
  {round : List ModuleId} {rounds : List (List ModuleId)} {verdict : Except Fault Unit}

/-! ## From the loop to its rounds -/

theorem rounds_of_sweeps {bound before : Nat} {count : Except Fault Nat}
    (h : sweeps suite fuel bound before tour = some (count, last)) :
    ∃ rounds, Rounds suite fuel tour rounds (count.map fun _ => ()) last ∧
      ∀ total, count = .ok total → total = before + rounds.length := by
  induction bound generalizing before tour with
  | zero => cases h
  | succ bound ih =>
      rw [sweeps_succ] at h
      rcases andThen_cases h with ⟨fault, swept, hsweep, hresult⟩ | ⟨swept, hsweep, hrest⟩
      · cases hresult
        exact ⟨[], .fault hsweep, by simp⟩
      · by_cases idle : swept.reports.length = tour.reports.length
        · rw [if_pos idle] at hrest
          cases hrest
          rcases eq_or_reports_lt_of_visitAll hsweep with rfl | grown
          · exact ⟨[[]], .idle hsweep, by simp⟩
          · omega
        · rw [if_neg idle] at hrest
          obtain ⟨rounds, hrounds, htotal⟩ := ih hrest
          obtain ⟨fresh, advances⟩ := advances_visitAll hsweep
          have busy : fresh.reverse ≠ [] := by
            intro hnil
            have hlength := advances.length_reports
            rw [List.reverse_eq_nil_iff.mp hnil, List.length_nil, Nat.zero_add] at hlength
            exact idle hlength
          refine ⟨fresh.reverse :: rounds, .round hsweep ?_ busy hrounds, ?_⟩
          · rw [List.reverse_reverse, advances.done]
          · intro total hcount
            have hlater := htotal total hcount
            rw [List.length_cons]
            omega

/-! ## What the rounds finish -/

theorem advances_of_round (swept : tour.sweep suite fuel = some (.ok (), next))
    (finished : next.program.done = round.reverse ++ tour.program.done) :
    Advances tour round.reverse next := by
  obtain ⟨fresh, advances⟩ := advances_visitAll swept
  rw [advances.done, List.append_cancel_right_eq] at finished
  rw [← finished]
  exact advances

/-- The rounds finish different modules; what is finished beyond them belongs to a sweep that came
to a fault. -/
theorem Rounds.advances (h : Rounds suite fuel tour rounds verdict last) :
    ∃ rest, Advances tour (rest ++ rounds.flatten.reverse) last := by
  induction h with
  | idle swept => exact ⟨[], Advances.refl _⟩
  | fault swept =>
      obtain ⟨fresh, advances⟩ := advances_visitAll swept
      exact ⟨fresh, by simpa using advances⟩
  | round swept finished _ _ ih =>
      obtain ⟨rest, further⟩ := ih
      have advances := (advances_of_round swept finished).trans further
      rw [List.append_assoc, ← List.reverse_append] at advances
      exact ⟨rest, advances⟩

theorem Rounds.nodup (h : Rounds suite fuel tour rounds verdict last) : rounds.flatten.Nodup := by
  obtain ⟨rest, advances⟩ := h.advances
  exact (List.reverse_perm _).nodup_iff.mp (List.nodup_append.mp advances.nodup).2.1

/-- There is at most one sweep more than modules that the sweeps finish. -/
theorem Rounds.length_le (h : Rounds suite fuel tour rounds verdict last) :
    rounds.length ≤ rounds.flatten.length + 1 := by
  induction h with
  | idle swept => simp
  | fault swept => simp
  | @round _ _ _ first _ _ _ _ busy _ ih =>
      have hfirst := List.length_pos_iff.mpr busy
      rw [List.flatten_cons, List.length_append, List.length_cons]
      omega

/-- Only the last sweep of a call that ends well finishes nothing. -/
theorem Rounds.busy_of_ok (h : Rounds suite fuel tour rounds verdict last)
    (ok : verdict = .ok ()) :
    ∃ busy, rounds = busy ++ [[]] ∧ ∀ round ∈ busy, round ≠ [] := by
  induction h with
  | idle swept => exact ⟨[], rfl, by simp⟩
  | fault swept => cases ok
  | @round _ _ _ first _ _ _ _ hfirst _ ih =>
      obtain ⟨busy, rfl, hbusy⟩ := ih ok
      refine ⟨first :: busy, rfl, ?_⟩
      intro round hround
      rcases List.mem_cons.mp hround with rfl | hlater
      · exact hfirst
      · exact hbusy round hlater

end Tour

/-! ## The rounds of a call -/

namespace Program

variable {suite : PassSuite ρ τ} {program : Program ρ τ} {fuel : Nat} {entry : ModuleId}
  {outcome : ProgramOutcome ρ τ}

theorem entered_of_optimize {report : ProgramReport}
    (h : program.optimize suite fuel entry = some outcome) (ok : outcome.verdict = .ok report) :
    ∃ start, ({ program } : Tour ρ τ).visit suite fuel entry = some (.ok (), start) := by
  obtain ⟨start, _, entered, _⟩ := sweeps_of_optimize h ok
  exact ⟨start, entered⟩

/-- A call whose entry is finished goes on by rounds, and its report counts them. -/
theorem rounds_of_optimize (h : program.optimize suite fuel entry = some outcome)
    {start : Tour ρ τ}
    (entered : ({ program } : Tour ρ τ).visit suite fuel entry = some (.ok (), start)) :
    ∃ rounds last, Tour.Rounds suite fuel start rounds (outcome.verdict.map fun _ => ()) last ∧
      outcome.program = last.program ∧ outcome.visits = last.visits.reverse ∧
      ∀ report, outcome.verdict = .ok report → report = ⟨last.reports.reverse, rounds.length⟩ := by
  rw [optimize_eq, entered, Tour.andThen_ok] at h
  obtain ⟨⟨count, last⟩, hsweeps, rfl⟩ := Option.map_eq_some_iff.mp h
  obtain ⟨rounds, hrounds, htotal⟩ := Tour.rounds_of_sweeps hsweeps
  cases count with
  | error fault => exact ⟨rounds, last, hrounds, rfl, rfl, fun report ok => by cases ok⟩
  | ok total =>
      refine ⟨rounds, last, hrounds, rfl, rfl, ?_⟩
      intro report ok
      cases ok
      rw [htotal total rfl, Nat.zero_add]

end Program

end PassEngine
