import Mathlib.Data.Finset.Card
import PassEngine.Proofs.Program.Cost
import PassEngine.Proofs.Program.Imports
import PassEngine.Proofs.Program.Rounds
import PassEngine.Proofs.Script.Names

/-!
# Calls under a limit

Under a limit every attempt ends, and a call goes on only as long as there are further modules. So
it ends as well if all the names that passes hand over belong to a finite set, and what it costs is
bounded by the number of these names.
-/

namespace PassEngine

variable {ρ τ : Type} [DecidableEq ρ]

/-! ## Names that are handed over -/

namespace Tour

variable {suite : PassSuite ρ τ} {fuel : Nat} {entry id : ModuleId} {tour last : Tour ρ τ}
  {finished : List ModuleId} {said : List (Exchange τ)} {names : Finset String}
  {verdict : Except Fault Unit}

/-- In the rest of a call some pass hands over a name to register a module. -/
inductive Offers (suite : PassSuite ρ τ) (fuel : Nat) (entry : ModuleId) :
    Tour ρ τ → String → Prop where
  | here {tour id name tree answer} (due : tour.program.due entry = some id)
      (said : .offered name tree answer ∈
        tour.program.engine.exchangesAt suite fuel id tour.program.store) :
      Offers suite fuel entry tour name
  | later {tour id attempt report name} (due : tour.program.due entry = some id)
      (attempted : tour.program.engine.attempt suite fuel id tour.program.store = some attempt)
      (ok : attempt.verdict = .ok report)
      (rest : Offers suite fuel entry (tour.complete id attempt report) name) :
      Offers suite fuel entry tour name

/-- All names that are registered, and all that will be handed over, belong to a set. -/
structure NamesWithin (suite : PassSuite ρ τ) (fuel : Nat) (entry : ModuleId)
    (names : Finset String) (tour : Tour ρ τ) : Prop where
  registered : ∀ name ∈ tour.program.store.names, name ∈ names
  offered : ∀ name, Offers suite fuel entry tour name → name ∈ names

theorem NamesWithin.attempt (h : NamesWithin suite fuel entry names tour) {attempt : Attempt ρ τ}
    (due : tour.program.due entry = some id)
    (attempted : tour.program.engine.attempt suite fuel id tour.program.store = some attempt) :
    ∀ name ∈ attempt.store.names, name ∈ names := by
  intro name hname
  rcases (Engine.grows_attempt attempted).mem_names hname with hbefore | ⟨tree, other, hsaid⟩
  · exact h.registered name hbefore
  · exact h.offered name (.here due hsaid)

theorem NamesWithin.complete (h : NamesWithin suite fuel entry names tour)
    {attempt : Attempt ρ τ} {report : ModuleReport} (due : tour.program.due entry = some id)
    (attempted : tour.program.engine.attempt suite fuel id tour.program.store = some attempt)
    (ok : attempt.verdict = .ok report) :
    NamesWithin suite fuel entry names (tour.complete id attempt report) where
  registered := h.attempt due attempted
  offered := fun name hname => h.offered name (.later due attempted ok hname)

/-- Passes that keep within a set of names hand over no others. -/
theorem Offers.mem_names {Fits : τ → Prop} {name : String} (kept : suite.KeepsWithin names Fits)
    (fits : tour.program.store.AllFit Fits) (h : Offers suite fuel entry tour name) :
    name ∈ names := by
  induction h with
  | here _ said => exact (Engine.offered_attempt kept fits said).1
  | later _ attempted _ _ ih => exact ih (Engine.fits_attempt kept fits attempted)

theorem Completes.namesWithin (h : Completes suite fuel entry tour finished said last)
    (within : NamesWithin suite fuel entry names tour) :
    NamesWithin suite fuel entry names last := by
  induction h with
  | nil => exact within
  | cons due attempted ok _ ih => exact ih (within.complete due attempted ok)

theorem Ends.known (within : NamesWithin suite fuel entry names tour)
    (h : Ends suite fuel entry tour verdict last) :
    ∀ name ∈ last.program.store.names, name ∈ names := by
  cases h with
  | well completes _ => exact (completes.namesWithin within).registered
  | badly completes fails =>
      exact (completes.namesWithin within).attempt fails.due fails.attempted

end Tour

omit [DecidableEq ρ] in
theorem ModuleStore.size_le_card {store : ModuleStore τ} {names : Finset String}
    (h : ∀ name ∈ store.names, name ∈ names) : store.size ≤ names.card := by
  have subset : store.names.toFinset ⊆ names :=
    fun name hname => h name (List.mem_toFinset.mp hname)
  have distinct : store.names.Nodup := store.names_nodup
  have hlength : store.names.length = store.size := List.length_map _
  rw [← hlength, ← List.toFinset_card_of_nodup distinct]
  exact Finset.card_le_card subset

/-! ## Calls return -/

namespace Tour

variable {suite : PassSuite ρ τ} {fuel limit index bound : Nat} {entry : ModuleId}
  {tour : Tour ρ τ} {names : Finset String}

/-- The worklist comes to its end when it has passed as many positions as there are names. -/
theorem scan_returns (limited : tour.program.engine.settings.refreshLimit = some limit)
    (enough : tour.program.engine.allowance limit ≤ fuel)
    (within : NamesWithin suite fuel entry names tour)
    (entered : tour.program.finished entry = true)
    (below : ∀ id, id.index < index → tour.program.finished id = true)
    (le : index ≤ tour.program.store.size) (wide : names.card < index + bound) :
    ∃ result, scan suite fuel bound index tour = some result := by
  induction bound generalizing index tour with
  | zero =>
      have hsize := ModuleStore.size_le_card within.registered
      omega
  | succ bound ih =>
      rcases Nat.lt_or_ge index tour.program.store.size with hlt | hge
      · rw [scan_of_lt_size _ hlt]
        by_cases here : tour.program.finished ⟨index⟩ = true
        · rw [visit_of_finished here, andThen_ok]
          exact ih limited enough within entered (Program.finished_below_succ below here) hlt
            (by omega)
        · have unfinished : tour.program.finished ⟨index⟩ = false := Bool.eq_false_iff.mpr here
          have due := Program.due_of_first entered below hlt unfinished
          obtain ⟨attempt, attempted⟩ :=
            Engine.attempt_returns limited enough ⟨index⟩ tour.program.store
          rw [visit_of_unfinished unfinished, attempted, Option.map_some]
          cases ok : attempt.verdict with
          | error fault => exact ⟨_, rfl⟩
          | ok report =>
              have hsize := Engine.size_le_attempt attempted
              refine ih limited enough (within.complete due attempted ok) ?_
                (Program.finished_below_succ ?_ ?_) (Nat.lt_of_lt_of_le hlt hsize) (by omega)
              · exact (finished_complete attempt report).mpr (Or.inr entered)
              · intro id hid
                exact (finished_complete attempt report).mpr (Or.inr (below id hid))
              · exact (finished_complete attempt report).mpr (Or.inl rfl)
      · exact ⟨_, scan_of_size_le bound hge⟩

end Tour

theorem Program.worklist_returns {suite : PassSuite ρ τ} {program : Program ρ τ} {fuel limit : Nat}
    {entry : ModuleId} {names : Finset String}
    (limited : program.engine.settings.refreshLimit = some limit)
    (enough : program.engine.allowance limit ≤ fuel) (wide : names.card < fuel)
    (within : Tour.NamesWithin suite fuel entry names { program }) :
    ∃ observed, program.worklist suite fuel entry = some observed := by
  have hbound : names.card < 0 + fuel := by omega
  unfold worklist
  by_cases entered : program.finished entry = true
  · have hscan : ∃ result, Tour.scan suite fuel fuel 0 { program } = some result :=
      Tour.scan_returns limited enough within entered (finished_below_zero { program })
        (Nat.zero_le _) hbound
    obtain ⟨result, hscan⟩ := hscan
    rw [Tour.visit_of_finished entered, Tour.andThen_ok, hscan]
    exact ⟨_, rfl⟩
  · have unfinished : program.finished entry = false := Bool.eq_false_iff.mpr entered
    obtain ⟨attempt, attempted⟩ := Engine.attempt_returns limited enough entry program.store
    rw [Tour.visit_of_unfinished unfinished, attempted, Option.map_some]
    cases ok : attempt.verdict with
    | error fault => exact ⟨_, rfl⟩
    | ok report =>
        let tour := ({ program } : Tour ρ τ).complete entry attempt report
        have finished : tour.program.finished entry = true :=
          (Tour.finished_complete attempt report).mpr (Or.inl rfl)
        have complete := within.complete (due_of_unentered unfinished) attempted ok
        have hscan : ∃ result, Tour.scan suite fuel fuel 0 tour = some result :=
          Tour.scan_returns limited enough complete finished (finished_below_zero tour)
            (Nat.zero_le _) hbound
        obtain ⟨result, hscan⟩ := hscan
        exact ⟨_, congrArg (Option.map Tour.observed) hscan⟩

/-! ## What a call costs -/

namespace Program

/-- A call has an answer, and so many names and a limit bound what it costs: the attempts, to which
an entry that is not registered adds one, the completed sweeps and the executions. -/
structure Returns (program : Program ρ τ) (suite : PassSuite ρ τ) (entry : ModuleId)
    (names limit fuel : Nat) (outcome : ProgramOutcome ρ τ) : Prop where
  answer : ∀ more, fuel ≤ more → program.optimize suite more entry = some outcome
  attempts : outcome.visits.length ≤ names + if entry ∈ program.store.ids then 0 else 1
  sweeps : ∀ start, ({ program } : Tour ρ τ).visit suite fuel entry = some (.ok (), start) →
    ∃ rounds last, Tour.Rounds suite fuel start rounds (outcome.verdict.map fun _ => ()) last ∧
      outcome.program = last.program ∧ rounds.length ≤ names + 1 ∧
      ∀ report, outcome.verdict = .ok report → report.sweeps = rounds.length
  executions : outcome.executions.length ≤
    names * limit * (program.engine.table.scope program.engine.settings).length

variable {suite : PassSuite ρ τ} {program : Program ρ τ} {fuel limit : Nat} {entry : ModuleId}
  {names : Finset String} {outcome : ProgramOutcome ρ τ}

/-- A call under a limit returns if the names that are handed over belong to a finite set. -/
theorem returns_of_names (limited : program.engine.settings.refreshLimit = some limit)
    (within : ∀ fuel, Tour.NamesWithin suite fuel entry names { program }) :
    ∃ fuel outcome, Returns program suite entry names.card limit fuel outcome := by
  have hfuel := Nat.le_max_left (program.engine.allowance limit) (names.card + 1)
  have hwide := Nat.le_max_right (program.engine.allowance limit) (names.card + 1)
  obtain ⟨observed, hworklist⟩ := worklist_returns limited hfuel hwide (within _)
  obtain ⟨fuel, hobserved⟩ := optimize_of_worklist hworklist
  obtain ⟨outcome, houtcome, _⟩ := Option.map_eq_some_iff.mp hobserved
  obtain ⟨count, last, rfl, ends⟩ := ends_of_optimize houtcome
  have hsize := ModuleStore.size_le_card (ends.known (within fuel))
  obtain ⟨tried, nodup, registered, hvisits, hexecutions⟩ := ends.tried limited
  have htried := Nat.le_trans (ModuleStore.length_le_size nodup registered) hsize
  refine ⟨fuel, Tour.conclude (count, last), fun more le => optimize_of_le le houtcome, ?_, ?_, ?_⟩
  · change last.visits.reverse.length ≤ _
    rw [List.length_reverse]
    omega
  · intro start entered
    obtain ⟨rounds, final, hrounds, hprogram, _, hreport⟩ := rounds_of_optimize houtcome entered
    refine ⟨rounds, final, hrounds, hprogram, ?_, fun report ok => by rw [hreport report ok]⟩
    obtain ⟨rest, advances⟩ := hrounds.advances
    have hfinished := ModuleStore.length_le_size advances.nodup advances.registered
    have hlength := hrounds.length_le
    rw [← hprogram, List.length_append, List.length_reverse] at hfinished
    change _ ≤ last.program.store.size at hfinished
    omega
  · rw [Nat.mul_assoc]
    exact Nat.le_trans hexecutions (Nat.mul_le_mul_right _ htried)

end Program

namespace Script

variable {passes : List ScriptedPass} {templates : List (String × ScriptTree)}
  {program : Program Nat ScriptTree} {fuel : Nat} {entry : ModuleId}

theorem namesWithin_mentioned :
    Tour.NamesWithin (suite passes (lookup templates)) fuel entry
      (mentioned passes templates program.store).toFinset { program } where
  registered := by
    intro name hname
    rw [List.mem_toFinset]
    exact List.mem_append_left _ (List.mem_append_left _ hname)
  offered := by
    intro name hname
    have kept : (suite passes (lookup templates)).KeepsWithin
        (mentioned passes templates program.store).toFinset
        (ImportsWithin (mentioned passes templates program.store).toFinset) :=
      keepsWithin_mentioned
    have fits : program.store.AllFit
        (ImportsWithin (mentioned passes templates program.store).toFinset) := allFit_mentioned
    exact Tour.Offers.mem_names kept fits hname

end Script

namespace Program

/-- Under a limit every call returns whose names belong to a finite set, and it costs what the limit
and the number of names allow. The names of scripted passes are those that are mentioned. -/
theorem returns_within_names :
    (∀ (ρ τ : Type) [DecidableEq ρ] (suite : PassSuite ρ τ) (program : Program ρ τ)
      (entry : ModuleId) (limit : Nat) (names : Finset String),
      program.engine.settings.refreshLimit = some limit →
      (∀ name ∈ program.store.names, name ∈ names) →
      (∀ fuel name, Tour.Offers suite fuel entry { program } name → name ∈ names) →
      ∃ fuel outcome, Returns program suite entry names.card limit fuel outcome) ∧
    ∀ (passes : List ScriptedPass) (templates : List (String × ScriptTree))
      (program : Program Nat ScriptTree) (entry : ModuleId) (limit : Nat),
      program.engine.settings.refreshLimit = some limit →
      let suite := Script.suite passes (Script.lookup templates)
      let names := (Script.mentioned passes templates program.store).toFinset
      (∀ fuel name, Tour.Offers suite fuel entry { program } name → name ∈ names) ∧
        ∃ fuel outcome, Returns program suite entry names.card limit fuel outcome := by
  refine ⟨?_, ?_⟩
  · intro ρ τ _ suite program entry limit names limited registered offered
    exact returns_of_names limited fun fuel => ⟨registered, offered fuel⟩
  · intro passes templates program entry limit limited suite names
    have within : ∀ fuel, Tour.NamesWithin suite fuel entry names { program } :=
      fun _ => Script.namesWithin_mentioned
    exact ⟨fun fuel => (within fuel).offered, returns_of_names limited within⟩

end Program

/-! ## A scripted program -/

namespace Spreading

/-- One module spells out a name, and all follow their imports. -/
def passes : List ScriptedPass :=
  [⟨"spread", "Registers modules", [.ifNamed "main" [.register "util"] [], .registerImports true]⟩]

def templates : List (String × ScriptTree) :=
  [("util", { imports := ["late", "main"] })]

def program : Program Nat ScriptTree where
  engine := ⟨Cyclic.table, { refreshLimit := some 2 }, by decide⟩
  store := .singleton "main" { imports := ["extra"] }

end Spreading

namespace Program

/-- Four names are mentioned, and all of them are registered in the end. -/
theorem returns_within_names_spreading :
    let suite := Script.suite Spreading.passes (Script.lookup Spreading.templates)
    let names :=
      (Script.mentioned Spreading.passes Spreading.templates Spreading.program.store).toFinset
    Spreading.program.engine.settings.refreshLimit = some 2 ∧ names.card = 4 ∧
      (∀ name ∈ Spreading.program.store.names, name ∈ names) ∧
      (∀ fuel name, Tour.Offers suite fuel ⟨0⟩ { program := Spreading.program } name →
        name ∈ names) ∧
      (∃ fuel outcome, Returns Spreading.program suite ⟨0⟩ 4 2 fuel outcome ∧
        outcome.visits.length ≤ 4 ∧ outcome.executions.length ≤ 8) ∧
      ∃ fuel outcome, Returns Spreading.program suite ⟨9⟩ 4 2 fuel outcome := by
  intro suite names
  have limited : Spreading.program.engine.settings.refreshLimit = some 2 := rfl
  have hcard : names.card = 4 := by decide
  have within : ∀ fuel entry, Tour.NamesWithin suite fuel entry names
      { program := Spreading.program } := fun _ _ => Script.namesWithin_mentioned
  have offered := fun fuel => (within fuel ⟨0⟩).offered
  obtain ⟨fuel, outcome, returns⟩ := returns_within_names.1 Nat ScriptTree suite Spreading.program
    ⟨0⟩ 2 names limited (within 0 ⟨0⟩).registered offered
  obtain ⟨_, fuel', outcome', returns'⟩ := returns_within_names.2 Spreading.passes
    Spreading.templates Spreading.program ⟨9⟩ 2 limited
  rw [hcard] at returns
  refine ⟨limited, hcard, (within 0 ⟨0⟩).registered, offered,
    ⟨fuel, outcome, returns, returns.attempts, returns.executions⟩, fuel', outcome', ?_⟩
  rw [← hcard]
  exact returns'

end Program

end PassEngine
