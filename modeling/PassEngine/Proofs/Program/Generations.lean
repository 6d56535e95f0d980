import Mathlib.Data.List.Nodup
import Mathlib.Order.Bounds.Defs
import PassEngine.Proofs.Attempt.Discoveries
import PassEngine.Proofs.Program.Imports
import PassEngine.Proofs.Program.Rounds

/-!
# Generations of modules

A module that was not registered when the first sweep began was registered by a pass at work on
another one. Counted along these discoveries, each module has a generation, and the sweep of that
number is the one that finishes it: a sweep does not go on to what is registered while it lasts.
-/

namespace PassEngine

variable {ρ τ : Type}

/-- The modules that were registered in a visit, in order, each with the module that was worked on
at that time. -/
def Visit.discoveries (visit : Visit ρ) : List (ModuleId × ModuleId) :=
  match visit.transcript with
  | none => []
  | some transcript => transcript.discovered.map fun id => (transcript.subject.id, id)

def ProgramOutcome.discoveries (outcome : ProgramOutcome ρ τ) : List (ModuleId × ModuleId) :=
  outcome.visits.flatMap Visit.discoveries

/-! ## Generations -/

/-- The modules that are there initially are the first generation, and what is discovered while a
module is worked on is of the next generation after it. -/
inductive Generation (initial : List ModuleId) (discoveries : List (ModuleId × ModuleId)) :
    ModuleId → Nat → Prop where
  | initial {id} (known : id ∈ initial) : Generation initial discoveries id 1
  | discovered {finder id n} (late : id ∉ initial) (found : (finder, id) ∈ discoveries)
      (generation : Generation initial discoveries finder n) :
      Generation initial discoveries id (n + 1)

section Generation

variable {initial : List ModuleId} {discoveries : List (ModuleId × ModuleId)} {id : ModuleId}
  {n m : Nat}

/-- If nothing is discovered twice, a module has one generation at most. -/
theorem Generation.unique (nodup : (discoveries.map Prod.snd).Nodup)
    (h : Generation initial discoveries id n) (h' : Generation initial discoveries id m) :
    n = m := by
  induction h generalizing m with
  | initial known =>
      cases h' with
      | initial _ => rfl
      | discovered late _ _ => exact absurd known late
  | discovered late found _ ih =>
      cases h' with
      | initial known => exact absurd known late
      | discovered _ found' generation =>
          have hpair := List.inj_on_of_nodup_map nodup found found' rfl
          rw [ih ((Prod.mk.inj hpair).1 ▸ generation)]

end Generation

/-- The members of a list of lists have generations, those of the first list the first one, and so
on; no list is empty. -/
structure Layers (generation : ModuleId → Nat → Prop) (rounds : List (List ModuleId)) : Prop where
  unique : ∀ id ∈ rounds.flatten, ∃! n, generation id n
  mem_iff : ∀ n round, rounds[n]? = some round →
    ∀ id, id ∈ round ↔ id ∈ rounds.flatten ∧ generation id (n + 1)
  busy : ∀ round ∈ rounds, round ≠ []

section Layers

variable {generation : ModuleId → Nat → Prop} {rounds : List (List ModuleId)}

theorem layers_of_generation
    (functional : ∀ id n m, generation id n → generation id m → n = m)
    (assigned : ∀ n round, rounds[n]? = some round → ∀ id ∈ round, generation id (n + 1))
    (busy : ∀ round ∈ rounds, round ≠ []) : Layers generation rounds where
  unique := by
    intro id hid
    obtain ⟨round, hround, hid⟩ := List.mem_flatten.mp hid
    obtain ⟨n, hn⟩ := List.mem_iff_getElem?.mp hround
    have hgeneration := assigned n round hn id hid
    exact ⟨n + 1, hgeneration, fun m hm => functional id m (n + 1) hm hgeneration⟩
  mem_iff := by
    intro n round hn id
    constructor
    · intro hid
      exact ⟨List.mem_flatten.mpr ⟨round, List.mem_of_getElem? hn, hid⟩, assigned n round hn id hid⟩
    · rintro ⟨hid, hgeneration⟩
      obtain ⟨other, hother, hid⟩ := List.mem_flatten.mp hid
      obtain ⟨m, hm⟩ := List.mem_iff_getElem?.mp hother
      have hsame := functional id _ _ (assigned m other hm id hid) hgeneration
      rw [Nat.succ_inj.mp hsame, hn] at hm
      cases hm
      exact hid
  busy := busy

/-- The highest generation is the number of the last list. -/
theorem Layers.isGreatest (h : Layers generation rounds) (nonempty : rounds.flatten ≠ []) :
    IsGreatest {n | ∃ id ∈ rounds.flatten, generation id n} rounds.length := by
  refine ⟨?_, ?_⟩
  · have hne : rounds ≠ [] := by
      rintro rfl
      exact nonempty rfl
    obtain ⟨n, hn⟩ := Nat.exists_eq_succ_of_ne_zero (mt List.length_eq_zero_iff.mp hne)
    obtain ⟨round, hround⟩ : ∃ round, rounds[n]? = some round :=
      ⟨_, List.getElem?_eq_getElem (by omega)⟩
    obtain ⟨id, hid⟩ := List.exists_mem_of_ne_nil round (h.busy round (List.mem_of_getElem? hround))
    rw [hn]
    exact ⟨id, (h.mem_iff n round hround id).mp hid⟩
  · rintro m ⟨id, hid, hgeneration⟩
    obtain ⟨round, hround, hmem⟩ := List.mem_flatten.mp hid
    obtain ⟨n, hn⟩ := List.mem_iff_getElem?.mp hround
    have hsame := (h.unique id hid).unique hgeneration ((h.mem_iff n round hn id).mp hmem).2
    have hlt := (List.getElem?_eq_some_iff.mp hn).1
    omega

end Layers

/-! ## What a call discovers -/

namespace Tour

/-- What was registered in a call so far. -/
def discoveries (tour : Tour ρ τ) : List (ModuleId × ModuleId) :=
  tour.visits.reverse.flatMap Visit.discoveries

/-- A part of a call that finished some modules registered others while it worked on them. -/
structure Explores (tour : Tour ρ τ) (fresh : List ModuleId)
    (found : List (ModuleId × ModuleId)) (next : Tour ρ τ) : Prop
    extends Advances tour fresh next where
  ids : next.program.store.ids = tour.program.store.ids ++ found.map Prod.snd
  recorded : next.discoveries = tour.discoveries ++ found
  finders : ∀ pair ∈ found, pair.1 ∈ fresh

variable {tour middle next last : Tour ρ τ} {fresh later : List ModuleId}
  {found more : List (ModuleId × ModuleId)} {id : ModuleId}

theorem Explores.refl (tour : Tour ρ τ) : Explores tour [] [] tour where
  toAdvances := Advances.refl tour
  ids := (List.append_nil _).symm
  recorded := (List.append_nil _).symm
  finders := by simp

theorem Explores.trans (h : Explores tour fresh found middle)
    (h' : Explores middle later more next) :
    Explores tour (later ++ fresh) (found ++ more) next where
  toAdvances := h.toAdvances.trans h'.toAdvances
  ids := by rw [h'.ids, h.ids, List.map_append, List.append_assoc]
  recorded := by rw [h'.recorded, h.recorded, List.append_assoc]
  finders := by
    intro pair hpair
    rcases List.mem_append.mp hpair with hfound | hmore
    · exact List.mem_append_right _ (h.finders pair hfound)
    · exact List.mem_append_left _ (h'.finders pair hmore)

variable [DecidableEq ρ] {suite : PassSuite ρ τ} {fuel : Nat}

theorem explores_complete {attempt : Attempt ρ τ} {report : ModuleReport}
    (unfinished : tour.program.finished id = false)
    (h : tour.program.engine.attempt suite fuel id tour.program.store = some attempt)
    (ok : attempt.verdict = .ok report) :
    ∃ found, Explores tour [id] found (tour.complete id attempt report) := by
  have hids := Engine.ids_attempt h
  cases htranscript : attempt.transcript with
  | none =>
      rw [htranscript] at hids
      refine ⟨[], advances_complete unfinished h ok, hids, ?_, by simp⟩
      simp [discoveries, complete, Visit.discoveries, htranscript]
  | some transcript =>
      rw [htranscript] at hids
      have hsubject := Engine.subject_of_attempt h htranscript
      refine ⟨transcript.discovered.map fun other => (transcript.subject.id, other),
        advances_complete unfinished h ok, ?_, ?_, ?_⟩
      · simpa [complete, Function.comp_def] using hids
      · simp [discoveries, complete, Visit.discoveries, htranscript]
      · intro pair hpair
        obtain ⟨other, _, rfl⟩ := List.mem_map.mp hpair
        exact List.mem_singleton.mpr hsubject

theorem explores_visit (h : tour.visit suite fuel id = some (.ok (), next)) :
    ∃ found, Explores tour (if tour.program.finished id then [] else [id]) found next := by
  cases hfinished : tour.program.finished id with
  | true =>
      rw [visit_of_finished hfinished] at h
      cases h
      exact ⟨[], Explores.refl _⟩
  | false =>
      obtain ⟨attempt, report, hattempt, ok, rfl⟩ := completed_of_visit hfinished h
      exact explores_complete hfinished hattempt ok

theorem explores_visitAll {ids : List ModuleId}
    (h : visitAll suite fuel ids tour = some (.ok (), next)) :
    ∃ fresh found, Explores tour fresh found next ∧ fresh ⊆ ids := by
  induction ids generalizing tour with
  | nil =>
      cases h
      exact ⟨[], [], Explores.refl next, List.nil_subset _⟩
  | cons id rest ih =>
      obtain ⟨middle, hvisit, hrest⟩ := visitAll_cons_ok_iff.mp h
      obtain ⟨found, first⟩ := explores_visit hvisit
      obtain ⟨later, more, further, hlater⟩ := ih hrest
      refine ⟨_, _, first.trans further, List.append_subset.mpr ⟨?_, ?_⟩⟩
      · exact List.subset_cons_of_subset id hlater
      · split
        · exact List.nil_subset _
        · simp

/-! ## The generations of the rounds -/

variable {round : List ModuleId} {rounds : List (List ModuleId)} {verdict : Except Fault Unit}

theorem explores_round (swept : tour.sweep suite fuel = some (.ok (), next))
    (finished : next.program.done = round.reverse ++ tour.program.done) :
    round ⊆ tour.program.store.ids ∧ ∃ found, Explores tour round.reverse found next := by
  obtain ⟨fresh, found, explores, within⟩ := explores_visitAll swept
  rw [explores.done, List.append_cancel_right_eq] at finished
  rw [finished] at explores within
  exact ⟨fun id hid => within (List.mem_reverse.mpr hid), found, explores⟩

theorem Rounds.explores (h : Rounds suite fuel tour rounds verdict last)
    (ok : verdict = .ok ()) : ∃ found, Explores tour rounds.flatten.reverse found last := by
  induction h with
  | idle swept => exact ⟨[], Explores.refl _⟩
  | fault swept => cases ok
  | round swept finished _ _ ih =>
      obtain ⟨_, found, explores⟩ := explores_round swept finished
      obtain ⟨more, further⟩ := ih ok
      refine ⟨found ++ more, ?_⟩
      rw [List.flatten_cons, List.reverse_append]
      exact explores.trans further

/-- When the modules that a sweep has to finish are all of one generation, it discovers the next
generation, and that is what it leaves to the sweep after it. -/
theorem Rounds.generation {initial : List ModuleId} {before : Nat}
    (h : Rounds suite fuel tour rounds verdict last) (ok : verdict = .ok ())
    (known : initial ⊆ tour.program.store.ids)
    (due : ∀ id ∈ tour.program.store.ids, tour.program.finished id = false →
      Generation initial last.discoveries id (before + 1)) :
    ∀ n round, rounds[n]? = some round → ∀ id ∈ round,
      Generation initial last.discoveries id (before + n + 1) := by
  induction h generalizing before with
  | idle swept =>
      intro n round hround id hid
      have hempty := List.mem_of_getElem? hround
      rw [List.mem_singleton.mp hempty] at hid
      cases hid
  | fault swept => cases ok
  | @round tour next last first rounds verdict swept finished _ rest ih =>
      obtain ⟨within, found, explores⟩ := explores_round swept finished
      obtain ⟨more, further⟩ := rest.explores ok
      have here : ∀ id ∈ first, Generation initial last.discoveries id (before + 1) := by
        intro id hid
        have unfinished := explores.unfinished id (List.mem_reverse.mpr hid)
        exact due id (within hid) (by simpa [Program.finished] using unfinished)
      have next_due : ∀ id ∈ next.program.store.ids, next.program.finished id = false →
          Generation initial last.discoveries id (before + 1 + 1) := by
        intro id hid hunfinished
        have hnodup := next.program.store.ids_nodup
        rw [explores.ids] at hid hnodup
        have late : id ∉ tour.program.store.ids := by
          intro hold
          have hdone := (finished_of_sweep swept).1 id (ModuleStore.mem_ids.mp hold)
          rw [hunfinished] at hdone
          cases hdone
        obtain ⟨⟨finder, _⟩, hpair, rfl⟩ :=
          List.mem_map.mp ((List.mem_append.mp hid).resolve_left late)
        refine .discovered (fun hinitial => late (known hinitial)) ?_
          (here finder (List.mem_reverse.mp (explores.finders _ hpair)))
        rw [further.recorded, explores.recorded]
        exact List.mem_append_left _ (List.mem_append_right _ hpair)
      intro n round hround id hid
      cases n with
      | zero =>
          cases hround
          exact here id hid
      | succ n =>
          have subset : initial ⊆ next.program.store.ids := by
            rw [explores.ids]
            exact List.subset_append_of_subset_left _ known
          have hlater := ih ok subset next_due n round hround id hid
          have hcount : before + (n + 1) + 1 = before + 1 + n + 1 := by omega
          rw [hcount]
          exact hlater

theorem Rounds.layers
    (h : Rounds suite fuel tour (rounds ++ [[]]) (.ok ()) last)
    (nodup : (last.discoveries.map Prod.snd).Nodup) (busy : ∀ round ∈ rounds, round ≠ []) :
    Layers (Generation tour.program.store.ids last.discoveries) rounds := by
  refine layers_of_generation (fun id n m => Generation.unique nodup) ?_ busy
  intro n round hround id hid
  have hlt := (List.getElem?_eq_some_iff.mp hround).1
  have hall : (rounds ++ [[]])[n]? = some round := by
    rw [List.getElem?_append_left hlt, hround]
  have hgeneration := h.generation rfl (List.Subset.refl _) (fun _ known _ => .initial known)
    n round hall id hid
  rw [Nat.zero_add] at hgeneration
  exact hgeneration

end Tour

namespace Program

variable [DecidableEq ρ] {suite : PassSuite ρ τ}

/-- A call that ends well finishes each module in the sweep of its generation, counted from what was
registered when the first sweep began. There is one sweep more than there are generations. -/
theorem sweeps_count_generations {program : Program ρ τ} {fuel : Nat} {entry : ModuleId}
    {outcome : ProgramOutcome ρ τ} {report : ProgramReport}
    (h : program.optimize suite fuel entry = some outcome) (ok : outcome.verdict = .ok report) :
    ∃ start rounds last,
      ({ program } : Tour ρ τ).visit suite fuel entry = some (.ok (), start) ∧
      Tour.Rounds suite fuel start (rounds ++ [[]]) (.ok ()) last ∧
      outcome.program = last.program ∧
      outcome.program.store.ids = program.store.ids ++ outcome.discoveries.map Prod.snd ∧
      report.modules.map (·.subject.id) =
        (if program.finished entry then [] else [entry]) ++ rounds.flatten ∧
      entry ∉ rounds.flatten ∧ rounds.flatten.Nodup ∧
      let generation := Generation start.program.store.ids outcome.discoveries
      Layers generation rounds ∧
      report.sweeps = rounds.length + 1 ∧
      (rounds.flatten = [] → report.sweeps = 1) ∧
      (rounds.flatten ≠ [] →
        IsGreatest {n | ∃ id ∈ rounds.flatten, generation id n} rounds.length) ∧
      report.sweeps ≤ 1 + rounds.flatten.length := by
  obtain ⟨start, entered⟩ := entered_of_optimize h ok
  obtain ⟨all, last, hrounds, hprogram, hvisits, hreport⟩ := rounds_of_optimize h entered
  obtain rfl := hreport report ok
  rw [ok] at hrounds
  obtain ⟨rounds, rfl, busy⟩ := hrounds.busy_of_ok rfl
  have hflatten : (rounds ++ [[]]).flatten = rounds.flatten := by simp
  have hsweeps : (rounds ++ [[]]).length = rounds.length + 1 := by simp
  have hwidth := hrounds.length_le
  rw [hflatten, hsweeps] at hwidth
  have hdiscoveries : outcome.discoveries = last.discoveries := by
    unfold ProgramOutcome.discoveries Tour.discoveries
    rw [hvisits]
  -- the part of the entry and the part of the sweeps together discover what the call does
  obtain ⟨found, first⟩ := Tour.explores_visit entered
  obtain ⟨more, swept⟩ := hrounds.explores rfl
  rw [hflatten] at swept
  have whole := first.trans swept
  have hids : last.program.store.ids = program.store.ids ++ last.discoveries.map Prod.snd := by
    rw [whole.recorded]
    exact whole.ids
  have hnodup := last.program.store.ids_nodup
  rw [hids, List.nodup_append] at hnodup
  have layers := hrounds.layers hnodup.2.1 busy
  rw [hprogram, hdiscoveries]
  refine ⟨start, rounds, last, entered, hrounds, rfl, hids, ?_, ?_, ?_, layers, hsweeps, ?_,
    layers.isGreatest, ?_⟩
  · change last.reports.reverse.map (·.subject.id) = _
    rw [List.map_reverse, whole.reported, List.map_nil, List.append_nil, List.reverse_append,
      List.reverse_reverse]
    split
    · rfl
    · rfl
  · intro hentry
    have unfinished := swept.unfinished entry (List.mem_reverse.mpr hentry)
    exact unfinished (by simpa [finished] using Tour.finished_of_visit entered)
  · exact hflatten ▸ hrounds.nodup
  · intro hnone
    rw [hnone, List.length_nil] at hwidth
    change (rounds ++ [[]]).length = 1
    omega
  · change (rounds ++ [[]]).length ≤ 1 + rounds.flatten.length
    omega

/-- The entry leads to `a`, that to `b`, and that to `c`, so that there are three generations. -/
theorem sweeps_count_generations_cyclic :
    ∃ outcome report start, ∃ rounds : List (List ModuleId),
      Cyclic.program.optimize (Script.importing true Cyclic.template) 4 ⟨1⟩ = some outcome ∧
      outcome.verdict = .ok report ∧ report.sweeps = 4 ∧
      ({ program := Cyclic.program } : Tour Nat ScriptTree).visit
        (Script.importing true Cyclic.template) 4 ⟨1⟩ = some (.ok (), start) ∧
      start.program.store.ids = [⟨0⟩, ⟨1⟩, ⟨2⟩] ∧
      outcome.discoveries = [(⟨1⟩, ⟨2⟩), (⟨2⟩, ⟨3⟩), (⟨3⟩, ⟨4⟩)] ∧
      rounds.flatten = [⟨0⟩, ⟨2⟩, ⟨3⟩, ⟨4⟩] ∧ rounds.length = 3 ∧
      Generation start.program.store.ids outcome.discoveries ⟨4⟩ 3 ∧
      ∃ round, rounds[2]? = some round ∧ ⟨4⟩ ∈ round := by
  have settled : (Cyclic.program.optimize (Script.importing true Cyclic.template) 4 ⟨1⟩).map
      (fun outcome => (outcome.discoveries, outcome.verdict)) =
      some ([(⟨1⟩, ⟨2⟩), (⟨2⟩, ⟨3⟩), (⟨3⟩, ⟨4⟩)],
        .ok ⟨[⟨⟨⟨1⟩, "main"⟩, [⟨"import", 0⟩], 2⟩, ⟨⟨⟨0⟩, "util"⟩, [⟨"import", 0⟩], 2⟩,
        ⟨⟨⟨2⟩, "a"⟩, [⟨"import", 0⟩], 2⟩, ⟨⟨⟨3⟩, "b"⟩, [⟨"import", 0⟩], 2⟩,
        ⟨⟨⟨4⟩, "c"⟩, [⟨"import", 0⟩], 2⟩], 4⟩) := by
    decide +kernel
  have entered : (({ program := Cyclic.program } : Tour Nat ScriptTree).visit
      (Script.importing true Cyclic.template) 4 ⟨1⟩).map (·.2.program.store.ids) =
      some [⟨0⟩, ⟨1⟩, ⟨2⟩] := by
    decide +kernel
  obtain ⟨outcome, houtcome, hsummary⟩ := Option.map_eq_some_iff.mp settled
  obtain ⟨hdiscoveries, ok⟩ := Prod.mk.inj hsummary
  obtain ⟨start, rounds, last, hstart, _, _, _, hreported, _, _, layers, hsweeps, _⟩ :=
    sweeps_count_generations houtcome ok
  rw [hstart] at entered
  have hids : start.program.store.ids = [⟨0⟩, ⟨1⟩, ⟨2⟩] := Option.some.inj entered
  have unfinished : Cyclic.program.finished ⟨1⟩ = false := rfl
  rw [unfinished] at hreported
  have hflatten : rounds.flatten = [⟨0⟩, ⟨2⟩, ⟨3⟩, ⟨4⟩] := (List.cons.inj hreported).2.symm
  have hlength : rounds.length = 3 := (Nat.succ_inj.mp hsweeps).symm
  have third : Generation start.program.store.ids outcome.discoveries ⟨4⟩ 3 := by
    rw [hids, hdiscoveries]
    have first : Generation [⟨0⟩, ⟨1⟩, ⟨2⟩] [(⟨1⟩, ⟨2⟩), (⟨2⟩, ⟨3⟩), (⟨3⟩, ⟨4⟩)] ⟨2⟩ 1 :=
      .initial (by decide)
    have second : Generation [⟨0⟩, ⟨1⟩, ⟨2⟩] [(⟨1⟩, ⟨2⟩), (⟨2⟩, ⟨3⟩), (⟨3⟩, ⟨4⟩)] ⟨3⟩ 2 :=
      .discovered (by decide) (by decide) first
    exact .discovered (by decide) (by decide) second
  obtain ⟨round, hround⟩ : ∃ round, rounds[2]? = some round :=
    ⟨_, List.getElem?_eq_getElem (by omega)⟩
  refine ⟨outcome, _, start, rounds, houtcome, ok, rfl, hstart, hids, hdiscoveries, hflatten,
    hlength, third, round, hround, ?_⟩
  rw [layers.mem_iff 2 round hround, hflatten]
  exact ⟨by decide, third⟩

end Program

end PassEngine
