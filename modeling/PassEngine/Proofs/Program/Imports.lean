import PassEngine.Proofs.Program.Attempts
import PassEngine.Proofs.Script.Imports

/-!
# What a program imports

When the passes follow imports, a call that ends well has registered what the modules lead to
and nothing else, whatever cycles there are among the imports. Each module is optimized once, and
the new ones stand in the order of their discovery.
-/

namespace PassEngine

variable {ρ τ : Type}

/-- The names that some names lead to by way of imports, themselves included. -/
inductive Imported (graph : String → List String) (initial : List String) : String → Prop where
  | initial {name} : name ∈ initial → Imported graph initial name
  | step {importer name} :
      Imported graph initial importer → name ∈ graph importer → Imported graph initial name

/-! ## Names and slots -/

namespace ModuleStore

variable {store : ModuleStore τ} {imports : τ → List String} {template : String → τ}

/-- What a module of some name imports: what its tree does if it is registered, and else what the
tree does that it would be registered with. -/
def graph (store : ModuleStore τ) (imports : τ → List String) (template : String → τ)
    (name : String) : List String :=
  imports (((store.find? name).bind store.tree?).getD (template name))

theorem find?_of_slot? {id : ModuleId} {slot : Slot τ} (h : store.slot? id = some slot) :
    store.find? slot.name = some id := by
  obtain ⟨hlt, hslot⟩ := List.getElem?_eq_some_iff.mp h
  have hfirst : store.slots.findIdx? (·.name == slot.name) = some id.index := by
    rw [List.findIdx?_eq_some_iff_getElem]
    refine ⟨hlt, by simp [hslot], ?_⟩
    intro index hindex hname
    have distinct := List.pairwise_iff_getElem.mp store.names_nodup index id.index
      (by rw [List.length_map]; omega) (by rw [List.length_map]; exact hlt) hindex
    rw [List.getElem_map, List.getElem_map, hslot] at distinct
    exact distinct (by simpa using hname)
  unfold find?
  rw [hfirst]
  rfl

theorem find?_of_unknown {name : String} (h : name ∉ store.names) : store.find? name = none := by
  unfold find?
  rw [List.findIdx?_eq_none_iff.mpr]
  · rfl
  · intro slot hslot
    have hne : slot.name ≠ name := by
      rintro rfl
      exact h (List.mem_map_of_mem hslot)
    simpa using hne

theorem graph_of_unknown {name : String} (h : name ∉ store.names) :
    store.graph imports template name = imports (template name) := by
  unfold graph
  rw [find?_of_unknown h]
  rfl

theorem agrees_graph (present : ∀ slot ∈ store.slots, slot.tree.isSome = true) :
    store.Agrees imports (store.graph imports template) := by
  intro id slot hslot
  obtain ⟨tree, htree⟩ := Option.isSome_iff_exists.mp (present slot (List.mem_of_getElem? hslot))
  refine ⟨tree, htree, ?_⟩
  unfold graph tree?
  rw [find?_of_slot? hslot, Option.bind_some, hslot, Option.bind_some, htree]
  rfl

/-- The name of a module, if there is such a module. -/
def called (store : ModuleStore τ) (id : ModuleId) : String :=
  ((store.slot? id).map Slot.name).getD ""

theorem names_eq_map (store : ModuleStore τ) : store.names = store.ids.map store.called := by
  apply List.ext_getElem?
  intro index
  rcases Nat.lt_or_ge index store.slots.length with hlt | hge
  · simp [names, ids, size, called, slot?, hlt]
  · simp [names, ids, size, hge]

end ModuleStore

/-! ## Discoveries on the way -/

namespace Tour

variable {graph : String → List String} {initial : List String} {imports : τ → List String}
  {template : String → τ} {tour last : Tour ρ τ}

/-- What a call has discovered so far: the imports of what it has finished. -/
structure Discovers (graph : String → List String) (initial : List String)
    (imports : τ → List String) (tour : Tour ρ τ) : Prop where
  agrees : tour.program.store.Agrees imports graph
  reported : tour.reports.map (·.subject.id) = tour.program.done
  called : ∀ report ∈ tour.reports, ∃ slot,
    tour.program.store.slot? report.subject.id = some slot ∧ slot.name = report.subject.name
  order : tour.program.store.names =
    addNew initial ((tour.reports.reverse.map (·.subject.name)).flatMap graph)
  sound : ∀ name ∈ tour.program.store.names, Imported graph initial name

theorem Discovers.closed (h : Discovers graph initial imports tour)
    (all : ∀ id : ModuleId, id.index < tour.program.store.size → tour.program.finished id = true)
    {name : String} (imported : Imported graph initial name) :
    name ∈ tour.program.store.names := by
  rw [h.order, mem_addNew]
  induction imported with
  | initial hname => exact Or.inl hname
  | step _ hname ih =>
      -- the importer is finished, so that its report is one of those whose imports were added
      rw [← mem_addNew, ← h.order] at ih
      obtain ⟨id, slot, hslot, rfl⟩ := ModuleStore.mem_names_iff.mp ih
      have hdone := Program.finished_iff.mp (all id (ModuleStore.lt_size_iff.mpr ⟨slot, hslot⟩))
      rw [← h.reported] at hdone
      obtain ⟨report, hreport, rfl⟩ := List.mem_map.mp hdone
      obtain ⟨slot', hslot', hcalled⟩ := h.called report hreport
      cases hslot.symm.trans hslot'
      refine Or.inr (List.mem_flatMap.mpr ⟨slot.name, ?_, hname⟩)
      rw [hcalled]
      exact List.mem_map_of_mem (List.mem_reverse.mpr hreport)

theorem Discovers.names_perm (h : Discovers graph initial imports tour)
    (sound : tour.program.Sound)
    (all : ∀ id : ModuleId, id.index < tour.program.store.size → tour.program.finished id = true) :
    (tour.reports.reverse.map (·.subject.name)).Perm tour.program.store.names := by
  have hids : tour.program.done.Perm tour.program.store.ids := by
    rw [List.perm_ext_iff_of_nodup sound.nodup tour.program.store.ids_nodup]
    intro id
    rw [ModuleStore.mem_ids]
    exact ⟨sound.registered id, fun hid => Program.finished_iff.mp (all id hid)⟩
  have hcalled : tour.reports.map (·.subject.name) =
      tour.program.done.map tour.program.store.called := by
    rw [← h.reported, List.map_map]
    apply List.map_congr_left
    intro report hreport
    obtain ⟨slot, hslot, hname⟩ := h.called report hreport
    simp [ModuleStore.called, hslot, hname]
  rw [List.map_reverse, hcalled, ModuleStore.names_eq_map]
  exact (List.reverse_perm _).trans (hids.map _)

variable [DecidableEq ρ] {suite : PassSuite ρ τ} {fuel : Nat} {entry id : ModuleId}

theorem Discovers.complete {attempt : Attempt ρ τ} {report : ModuleReport}
    (follows : tour.program.engine.Follows suite imports template)
    (new : ∀ name ∉ initial, graph name = imports (template name))
    (h : Discovers graph initial imports tour)
    (attempted : tour.program.engine.attempt suite fuel id tour.program.store = some attempt)
    (ok : attempt.verdict = .ok report) :
    Discovers graph initial imports (tour.complete id attempt report) := by
  have fresh : ∀ name ∉ tour.program.store.names, graph name = imports (template name) := by
    intro name hname
    refine new name fun hinitial => hname ?_
    rw [h.order]
    exact mem_addNew.mpr (Or.inl hinitial)
  obtain ⟨hid, ⟨slot, hslot, hcalled⟩, hnames, agrees⟩ :=
    follows.adds_imports h.agrees fresh attempted ok
  have grows := Engine.grows_attempt attempted
  exact
    { agrees
      reported := by
        change report.subject.id :: tour.reports.map (·.subject.id) = id :: tour.program.done
        rw [hid, h.reported]
      called := by
        intro other hother
        rcases List.mem_cons.mp hother with rfl | hother
        · obtain ⟨slot', hslot', hname⟩ := grows.named id slot hslot
          rw [hid]
          exact ⟨slot', hslot', hname.trans hcalled⟩
        · obtain ⟨slot, hslot, hcalled⟩ := h.called other hother
          obtain ⟨slot', hslot', hname⟩ := grows.named _ slot hslot
          exact ⟨slot', hslot', hname.trans hcalled⟩
      order := by
        change attempt.store.names = addNew initial
          (((report :: tour.reports).reverse.map (·.subject.name)).flatMap graph)
        rw [hnames, h.order, ← addNew_append]
        simp
      sound := by
        intro name hname
        have hname : name ∈ attempt.store.names := hname
        rw [hnames] at hname
        rcases mem_addNew.mp hname with hold | himport
        · exact h.sound name hold
        · refine .step (h.sound report.subject.name ?_) himport
          exact ModuleStore.mem_names_iff.mpr ⟨id, slot, hslot, hcalled⟩ }

theorem Completes.discovers {finished : List ModuleId} {said : List (Exchange τ)}
    (completes : Completes suite fuel entry tour finished said last)
    (follows : tour.program.engine.Follows suite imports template)
    (new : ∀ name ∉ initial, graph name = imports (template name))
    (h : Discovers graph initial imports tour) : Discovers graph initial imports last := by
  induction completes with
  | nil => exact h
  | cons _ attempted ok _ ih => exact ih follows (h.complete follows new attempted ok)

end Tour

namespace Program

variable [DecidableEq ρ] {suite : PassSuite ρ τ} {imports : τ → List String}
  {template : String → τ}

/-- A call on a new program that ends well has registered what the initial modules lead to, has
optimized each module once, and has registered the new ones in the order in which the optimized
modules import them. -/
theorem reaches_imports {program : Program ρ τ} {fuel : Nat} {entry : ModuleId}
    {outcome : ProgramOutcome ρ τ} {report : ProgramReport}
    (follows : program.engine.Follows suite imports template) (fresh : program.done = [])
    (present : ∀ slot ∈ program.store.slots, slot.tree.isSome = true)
    (h : program.optimize suite fuel entry = some outcome) (ok : outcome.verdict = .ok report) :
    let graph := program.store.graph imports template
    (∀ name, name ∈ outcome.program.store.names ↔ Imported graph program.store.names name) ∧
      report.names.Perm outcome.program.store.names ∧
      outcome.program.store.names = program.store.names ++
        ((report.names.flatMap graph).filter (· ∉ program.store.names)).eraseDups := by
  intro graph
  have sound : Sound program := ⟨by simp [fresh], by simp [fresh]⟩
  have soundly := sound.optimize h
  obtain ⟨count, last, rfl, ends⟩ := ends_of_optimize h
  cases count with
  | error fault => cases ok
  | ok sweeps =>
      cases ok
      cases ends with
      | well completes idle =>
          have discovers : Tour.Discovers graph program.store.names imports last := by
            refine completes.discovers follows (fun name => ModuleStore.graph_of_unknown) ?_
            exact
              { agrees := ModuleStore.agrees_graph present
                reported := fresh.symm
                called := by simp
                order := rfl
                sound := fun name hname => .initial hname }
          have all := (finished_of_idle idle).2
          refine ⟨fun name => ⟨discovers.sound name, discovers.closed all⟩,
            discovers.names_perm soundly all, ?_⟩
          rw [← addNew_eq]
          exact discovers.order

end Program

/-! ## A program with cycles -/

namespace Cyclic

def table : RuleTable Nat where
  rules := [.ofPredicate "new_code" [0]]
  wellFormed := RuleTable.wellFormed_singleton ⟨by decide, by decide⟩

/-- Modules that import themselves, each other, and one of them twice. -/
def template (name : String) : ScriptTree :=
  if name = "a" then { imports := ["b", "a"] }
  else if name = "b" then { imports := ["main", "c", "b", "c"] }
  else {}

def program : Program Nat ScriptTree where
  engine := ⟨table, Settings.default, Settings.valid_default⟩
  store :=
    (ModuleStore.singleton "util" ({ imports := ["util"] } : ScriptTree)).append "main"
      { imports := ["a", "util", "a"] } (by decide)

end Cyclic

namespace Program

/-- Each sweep discovers one more module, and the cycles end there. -/
theorem reaches_imports_cyclic :
    ∃ outcome report,
      Cyclic.program.optimize (Script.importing true Cyclic.template) 4 ⟨1⟩ = some outcome ∧
      outcome.verdict = .ok report ∧ report.names = ["main", "util", "a", "b", "c"] ∧
      outcome.program.store.names = ["util", "main", "a", "b", "c"] ∧
      ∀ name, name ∈ outcome.program.store.names ↔
        Imported (Cyclic.program.store.graph ScriptTree.imports Cyclic.template)
          ["util", "main"] name := by
  have follows : Cyclic.program.engine.Follows (Script.importing true Cyclic.template)
      ScriptTree.imports Cyclic.template :=
    Script.follows_imports (by decide) true Cyclic.template
  have settled : (Cyclic.program.optimize (Script.importing true Cyclic.template) 4 ⟨1⟩).map
      (fun outcome => (outcome.verdict, outcome.program.store.names)) =
      some (.ok ⟨[⟨⟨⟨1⟩, "main"⟩, [⟨"import", 0⟩], 2⟩, ⟨⟨⟨0⟩, "util"⟩, [⟨"import", 0⟩], 2⟩,
        ⟨⟨⟨2⟩, "a"⟩, [⟨"import", 0⟩], 2⟩, ⟨⟨⟨3⟩, "b"⟩, [⟨"import", 0⟩], 2⟩,
        ⟨⟨⟨4⟩, "c"⟩, [⟨"import", 0⟩], 2⟩], 4⟩, ["util", "main", "a", "b", "c"]) := by
    decide +kernel
  obtain ⟨outcome, houtcome, hsummary⟩ := Option.map_eq_some_iff.mp settled
  obtain ⟨ok, hnames⟩ := Prod.mk.inj hsummary
  obtain ⟨reached, _, _⟩ := reaches_imports follows rfl (by decide) houtcome ok
  exact ⟨outcome, _, houtcome, ok, rfl, hnames, reached⟩

end Program

end PassEngine
