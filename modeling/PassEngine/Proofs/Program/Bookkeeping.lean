import PassEngine.Journal
import PassEngine.Proofs.Program.History
import PassEngine.Proofs.Run.Isolation

/-!
# The books of a program

A program keeps count of what it has finished and of the trees that it lends to runs. The books
balance whenever somebody looks at them: between calls, however these ended, and within a call
after each module. What is finished is registered, so that the number of modules to go is that of
the registered ones that are not finished; and no tree stays out but one that was out before.
-/

namespace PassEngine

variable {ρ τ : Type}

/-! ## Trees that are there again -/

namespace ModuleStore

/-- The names in order, each with whether the tree is there. -/
def standing (store : ModuleStore τ) : List (String × Bool) :=
  store.slots.map fun slot => (slot.name, slot.tree.isSome)

/-- Every tree that was there is there again, and so is that of each module registered since. -/
def Intact (store grown : ModuleStore τ) : Prop :=
  ∃ added : List String, grown.standing = store.standing ++ added.map fun name => (name, true)

variable {store middle grown : ModuleStore τ} {id : ModuleId} {name : String}

theorem Intact.refl (store : ModuleStore τ) : Intact store store :=
  ⟨[], (List.append_nil _).symm⟩

theorem Intact.trans (h : Intact store middle) (h' : Intact middle grown) :
    Intact store grown := by
  obtain ⟨added, hmiddle⟩ := h
  obtain ⟨later, hgrown⟩ := h'
  exact ⟨added ++ later, by rw [hgrown, hmiddle, List.map_append, List.append_assoc]⟩

theorem intact_of_adds {added : List (String × τ)} (h : store.Adds added grown) :
    Intact store grown := by
  refine ⟨added.map Prod.fst, ?_⟩
  unfold standing
  rw [h]
  simp

theorem getElem?_standing (store : ModuleStore τ) (id : ModuleId) :
    store.standing[id.index]? =
      (store.slot? id).map fun slot => (slot.name, slot.tree.isSome) := by
  simp [standing, slot?]

/-- Another tree in a slot that holds one changes nothing in the standing of the store. -/
theorem standing_putTree {old : τ} (held : store.slot? id = some ⟨name, some old⟩) (tree : τ) :
    (store.putTree id (some tree)).standing = store.standing := by
  apply List.ext_getElem?
  intro index
  show (store.putTree id (some tree)).standing[(ModuleId.mk index).index]? =
    store.standing[(ModuleId.mk index).index]?
  rw [getElem?_standing, getElem?_standing, slot?_putTree]
  split
  · rename_i same
    rw [← same, held]
    rfl
  · rfl

theorem names_eq_standing (store : ModuleStore τ) : store.names = store.standing.map Prod.fst := by
  simp [names, standing]

theorem names_trees (store : ModuleStore τ) :
    store.trees.map Prod.fst = (store.standing.filter Prod.snd).map Prod.fst := by
  unfold trees standing
  induction store.slots with
  | nil => rfl
  | cons slot rest ih =>
      obtain ⟨name, held⟩ := slot
      cases held with
      | none => simpa using ih
      | some tree => simpa using ih

/-- A tree is out in the one store where it is out in the other. -/
theorem Intact.lent_iff (h : Intact store grown) :
    grown.slot? id = some ⟨name, none⟩ ↔ store.slot? id = some ⟨name, none⟩ := by
  have lent : ∀ store : ModuleStore τ, store.slot? id = some ⟨name, none⟩ ↔
      store.standing[id.index]? = some (name, false) := by
    intro store
    rw [getElem?_standing]
    cases store.slot? id with
    | none => simp
    | some slot =>
        obtain ⟨called, held⟩ := slot
        cases held with
        | none => simp
        | some tree => simp
  obtain ⟨added, hgrown⟩ := h
  rw [lent, lent, hgrown, List.getElem?_append]
  split
  · rfl
  · rename_i beyond
    rw [List.getElem?_eq_none (Nat.not_lt.mp beyond), List.getElem?_map]
    simp

/-- The names behind those that were there belong to trees that are there. -/
theorem Intact.names (h : Intact store grown) :
    ∃ added, grown.names = store.names ++ added ∧
      grown.trees.map Prod.fst = store.trees.map Prod.fst ++ added := by
  obtain ⟨added, hgrown⟩ := h
  refine ⟨added, ?_, ?_⟩
  · rw [names_eq_standing, hgrown, List.map_append, ← names_eq_standing]
    simp [Function.comp_def]
  · rw [names_trees, hgrown, List.filter_append, List.map_append, ← names_trees]
    simp [List.filter_map, Function.comp_def]

end ModuleStore

section

variable [DecidableEq ρ] {suite : PassSuite ρ τ} {fuel : Nat} {entry : ModuleId}

/-- An attempt brings the tree back that it borrowed, whatever the run came to. -/
theorem Engine.intact_attempt {engine : Engine ρ} {id : ModuleId} {store : ModuleStore τ}
    {attempt : Attempt ρ τ} (h : engine.attempt suite fuel id store = some attempt) :
    store.Intact attempt.store := by
  rcases attempt_spec h with ⟨_, rfl⟩ | ⟨_, _, rfl⟩ | ⟨name, tree, hslot, _⟩
  · exact ModuleStore.Intact.refl store
  · exact ModuleStore.Intact.refl store
  · rw [attempt_eq_of_copy engine suite fuel hslot] at h
    obtain ⟨_, _, rfl⟩ := Option.map_eq_some_iff.mp h
    have added := (answers_run engine suite ⟨id, name⟩ tree store fuel).adds
    have registered := ModuleStore.lt_size_iff.mpr ⟨_, hslot⟩
    -- the run only registered modules, and the slot held a tree before
    obtain ⟨more, hmore⟩ := ModuleStore.intact_of_adds
      (ModuleStore.adds_putTree added registered (some (engine.run suite fuel ⟨id, name⟩ tree
        store).tree))
    exact ⟨more, by rw [hmore, ModuleStore.standing_putTree hslot]⟩

namespace Tour

variable {tour last : Tour ρ τ} {finished : List ModuleId} {said : List (Exchange τ)}
  {verdict : Except Fault Unit}

theorem Completes.intact (h : Completes suite fuel entry tour finished said last) :
    tour.program.store.Intact last.program.store := by
  induction h with
  | nil => exact ModuleStore.Intact.refl _
  | cons _ attempted _ _ ih => exact (Engine.intact_attempt attempted).trans ih

theorem Ends.intact (h : Ends suite fuel entry tour verdict last) :
    tour.program.store.Intact last.program.store := by
  cases h with
  | well completes _ => exact completes.intact
  | badly completes fails => exact completes.intact.trans (Engine.intact_attempt fails.attempted)

/-- How many modules were left after a visit was counted when the visit was over. -/
theorem Completes.counted (h : Completes suite fuel entry tour finished said last)
    {visit : Visit ρ} (hvisit : visit ∈ last.visits) {left : Nat} (hleft : visit.left = some left) :
    visit ∈ tour.visits ∨ ∃ finished said reached,
      Completes suite fuel entry tour finished said reached ∧
        reached.visits.head? = some visit ∧ left = reached.program.pending := by
  induction h with
  | nil => exact Or.inl hvisit
  | cons due attempted ok _ ih =>
      rcases ih hvisit with here | ⟨finished, said, reached, completes, head, counted⟩
      -- what the rest of the chain did not add is the visit of this attempt, or was there before
      · rcases List.mem_cons.mp here with rfl | before
        · cases hleft
          exact Or.inr ⟨_, _, _, .cons due attempted ok .nil, rfl, rfl⟩
        · exact Or.inl before
      · exact Or.inr ⟨_, _, reached, .cons due attempted ok completes, head, counted⟩

theorem Ends.counted (h : Ends suite fuel entry tour verdict last)
    {visit : Visit ρ} (hvisit : visit ∈ last.visits) {left : Nat} (hleft : visit.left = some left) :
    visit ∈ tour.visits ∨ ∃ finished said reached,
      Completes suite fuel entry tour finished said reached ∧
        reached.visits.head? = some visit ∧ left = reached.program.pending := by
  cases h with
  | well completes _ => exact completes.counted hvisit hleft
  | badly completes _ =>
      rcases List.mem_cons.mp hvisit with rfl | before
      · cases hleft
      · exact completes.counted before hleft

/-- The last visit of a chain counted what the chain leaves. -/
theorem Completes.head_visit (h : Completes suite fuel entry tour finished said last)
    (nonempty : finished ≠ []) :
    ∃ visit earlier, last.visits = visit :: earlier ∧
      visit.left = some last.program.pending := by
  induction h with
  | nil => exact absurd rfl nonempty
  | @cons tour last id attempt report finished said due attempted ok rest ih =>
      cases rest with
      | nil => exact ⟨_, tour.visits, rfl, rfl⟩
      | cons => exact ih (List.cons_ne_nil _ _)

end Tour

end

/-! ## Modules that are left -/

namespace Program

/-- The books balance: only registered modules are finished, each of them once, and the modules to
go are the registered ones that are not finished, so that there are never more to take off than
there are. -/
structure Balanced (program : Program ρ τ) : Prop where
  registered : ∀ id ∈ program.done, id ∈ program.store.ids
  nodup : program.done.Nodup
  within : program.done.length ≤ program.store.size
  pending : program.pending = (program.store.ids.filter fun id => !program.finished id).length

theorem sound_of_fresh {program : Program ρ τ} (fresh : program.done = []) : Sound program := by
  constructor
  · simp [fresh]
  · simp [fresh]

theorem Sound.balanced {program : Program ρ τ} (sound : Sound program) : Balanced program := by
  have registered : ∀ id ∈ program.done, id ∈ program.store.ids := fun id hid =>
    ModuleStore.mem_ids.mpr (sound.registered id hid)
  refine ⟨registered, sound.nodup,
    ModuleStore.length_le_size sound.nodup sound.registered, ?_⟩
  -- the finished ones among the registered modules are all that are finished
  have finished : (program.store.ids.filter program.finished).Perm program.done := by
    rw [List.perm_ext_iff_of_nodup (program.store.ids_nodup.filter _) sound.nodup]
    intro id
    rw [List.mem_filter, finished_iff]
    exact ⟨And.right, fun hid => ⟨registered id hid, hid⟩⟩
  have split := List.length_eq_length_filter_add (l := program.store.ids) program.finished
  rw [ModuleStore.length_ids, finished.length_eq] at split
  unfold pending
  omega

variable [DecidableEq ρ] {suite : PassSuite ρ τ} {fuel : Nat} {entry : ModuleId}
  {program last : Program ρ τ} {outcome : ProgramOutcome ρ τ} {calls : List (Call ρ τ)}

theorem intact_optimize (h : program.optimize suite fuel entry = some outcome) :
    program.store.Intact outcome.program.store := by
  obtain ⟨_, last, ends, hprogram, _⟩ := exists_ends_of_optimize h
  rw [hprogram]
  exact ends.intact

theorem History.intact (h : History suite program calls last) :
    program.store.Intact last.store := by
  induction h with
  | nil => exact ModuleStore.Intact.refl _
  | cons _ _ called _ ih => exact (intact_optimize called).trans ih

theorem counted_of_optimize (h : program.optimize suite fuel entry = some outcome)
    {visit : Visit ρ} (hvisit : visit ∈ outcome.visits) {left : Nat}
    (hleft : visit.left = some left) :
    ∃ finished said tour, Tour.Completes suite fuel entry { program } finished said tour ∧
      tour.visits.head? = some visit ∧ left = tour.program.pending := by
  obtain ⟨_, last, ends, _, hvisits⟩ := exists_ends_of_optimize h
  rw [hvisits, List.mem_reverse] at hvisit
  exact (ends.counted hvisit hleft).resolve_left List.not_mem_nil

/-- A call that ended well and reports modules left none when it visited the last one. -/
theorem left_of_ok (sound : Sound program)
    (h : program.optimize suite fuel entry = some outcome) {report : ProgramReport}
    (ok : outcome.verdict = .ok report) (worked : report.modules ≠ []) :
    ∃ earlier visit, outcome.visits = earlier ++ [visit] ∧ visit.left = some 0 := by
  have exhausted : outcome.program.pending = 0 := by
    have all := (modules_of_optimize h ok).1
    unfold pending
    rw [(sound.optimize h).length_done all, Nat.sub_self]
  obtain ⟨count, last, rfl, ends⟩ := ends_of_optimize h
  cases count with
  | error fault => cases ok
  | ok sweeps =>
      cases ok
      cases ends with
      | @well finished _ _ completes _ =>
          have reported := completes.advances.length_reports
          have nonempty : finished ≠ [] := by
            rintro rfl
            exact worked (List.reverse_eq_nil_iff.mpr (List.length_eq_zero_iff.mp reported))
          obtain ⟨visit, earlier, hvisits, hleft⟩ := completes.head_visit nonempty
          refine ⟨earlier.reverse, visit, ?_, ?_⟩
          · unfold Tour.conclude
            rw [hvisits, List.reverse_cons]
          · rw [hleft]
            exact congrArg some exhausted

end Program

namespace Journal

/-- The line that is written when a module is finished. -/
def progressEntry (entry : ModuleId) (left : Nat) : Entry where
  level := .info
  message := "Finished. " ++ left.repr ++ " more modules to go."
  scope := some entry

/-- The line that is written when a call ends well. -/
def summaryEntry (entry : ModuleId) (report : ProgramReport) : Entry where
  level := .info
  message := "Whole program optimization finished"
  fields := [("modules", report.modules.length.repr), ("passes", report.total.repr),
    ("sweeps", report.sweeps.repr)]
  scope := some entry

theorem outcomeEntries_of_last (suite : PassSuite ρ τ) (entry : ModuleId)
    {outcome : ProgramOutcome ρ τ} {report : ProgramReport} {earlier : List (Visit ρ)}
    {visit : Visit ρ} {left : Nat} (ok : outcome.verdict = .ok report)
    (visits : outcome.visits = earlier ++ [visit]) (hleft : visit.left = some left)
    (shown : outcome.program.engine.settings.showProgress = true) :
    ∃ lines, outcomeEntries suite entry outcome =
      lines ++ [progressEntry entry left, summaryEntry entry report] := by
  unfold outcomeEntries
  rw [ok, visits, List.flatMap_append, List.flatMap_singleton]
  unfold visitEntries
  rw [hleft, shown]
  simp only [if_true, List.map_append, List.append_assoc]
  exact ⟨_, by rw [← List.append_assoc]; rfl⟩

end Journal

namespace Program

variable [DecidableEq ρ] {suite : PassSuite ρ τ} {program last : Program ρ τ}
  {calls : List (Call ρ τ)}

/-- Whatever calls a new program has had, its books balance, and the trees that are out are those
that were out in the beginning. Within a further call the books balance after each module, which is
when the modules to go are counted; and a call that ends well and reports modules counts none after
the last one, and says so if progress is shown. -/
theorem books_balance (fresh : program.done = []) (h : History suite program calls last) :
    last.Balanced ∧
    (∀ id name, last.store.slot? id = some ⟨name, none⟩ ↔
      program.store.slot? id = some ⟨name, none⟩) ∧
    (∃ added, last.store.names = program.store.names ++ added ∧
      last.store.trees.map Prod.fst = program.store.trees.map Prod.fst ++ added) ∧
    ∀ fuel entry,
      (∀ finished said tour,
        Tour.Completes suite fuel entry { program := last } finished said tour →
        tour.program.Balanced) ∧
      ∀ outcome, last.optimize suite fuel entry = some outcome →
        (∀ visit ∈ outcome.visits, ∀ left, visit.left = some left → ∃ finished said tour,
          Tour.Completes suite fuel entry { program := last } finished said tour ∧
            tour.visits.head? = some visit ∧ left = tour.program.pending) ∧
        ∀ report, outcome.verdict = .ok report → report.modules ≠ [] →
          last.engine.settings.showProgress = true →
          ∃ lines, Journal.outcomeEntries suite entry outcome =
            lines ++ [Journal.progressEntry entry 0, Journal.summaryEntry entry report] := by
  have sound := h.sound (sound_of_fresh fresh)
  refine ⟨sound.balanced, fun _ _ => h.intact.lent_iff, h.intact.names, ?_⟩
  intro fuel entry
  refine ⟨?_, ?_⟩
  · intro finished said tour completes
    exact (sound.advance completes.advances).balanced
  · intro outcome called
    refine ⟨fun _ hvisit _ => counted_of_optimize called hvisit, ?_⟩
    intro report ok worked shown
    obtain ⟨earlier, visit, visits, hleft⟩ := left_of_ok sound called ok worked
    rw [← engine_of_optimize called] at shown
    exact Journal.outcomeEntries_of_last suite entry ok visits hleft shown

end Program

/-! ## A program that shows its progress -/

namespace Tallied

/-- The program of `Draining`, but it shows its progress. -/
def program : Program Unit (List String) where
  engine := ⟨Importing.table, { showProgress := true }, by decide⟩
  store := Draining.program.store

/-- The same program, but somebody has the tree of the first module. -/
def lent : Program Unit (List String) :=
  { program with store := program.store.putTree ⟨0⟩ none }

end Tallied

namespace Program

/-- The first call fails, and the second one has three modules to go. Where a tree is out, a call
comes to a fault, and that tree is the only one that is missing afterwards. -/
theorem books_balance_tallied :
    ∃ failed well refused,
      Tallied.program.optimize Stumbling.suite 3 ⟨1⟩ = some failed ∧
      failed.verdict = .error (.passFailed "drain" "broken" "known") ∧
      failed.program.Balanced ∧ failed.program.pending = 3 ∧
      failed.program.optimize Stumbling.suite 3 ⟨1⟩ = some well ∧
      (∃ lines report, Journal.outcomeEntries Stumbling.suite ⟨1⟩ well =
        lines ++ [Journal.progressEntry ⟨1⟩ 0, Journal.summaryEntry ⟨1⟩ report]) ∧
      Tallied.lent.optimize Stumbling.suite 3 ⟨1⟩ = some refused ∧
      refused.verdict = .error (.moduleInUse "util") ∧
      refused.program.store.slot? ⟨0⟩ = some ⟨"util", none⟩ ∧
      ∃ added, refused.program.store.trees.map Prod.fst = ["main", "broken"] ++ added := by
  have calls : (Tallied.program.optimize Stumbling.suite 3 ⟨1⟩).bind (fun failed =>
      (failed.program.optimize Stumbling.suite 3 ⟨1⟩).map fun well =>
        (failed.verdict, failed.program.pending, well.verdict.toOption.map (·.modules.length),
          failed.program.engine.settings.showProgress)) =
      some (.error (.passFailed "drain" "broken" "known"), 3, some 4, true) := rfl
  have refusal : (Tallied.lent.optimize Stumbling.suite 3 ⟨1⟩).map (·.verdict) =
      some (.error (.moduleInUse "util")) := rfl
  obtain ⟨failed, hfailed, calls⟩ := Option.bind_eq_some_iff.mp calls
  obtain ⟨well, hwell, calls⟩ := Option.map_eq_some_iff.mp calls
  obtain ⟨refused, hrefused, hfault⟩ := Option.map_eq_some_iff.mp refusal
  simp only [Prod.mk.injEq] at calls
  obtain ⟨hverdict, hpending, hmodules, shown⟩ := calls
  have history : History Stumbling.suite Tallied.program [⟨⟨1⟩, failed⟩] failed.program :=
    .cons 3 ⟨1⟩ hfailed .nil
  obtain ⟨balanced, _, _, further⟩ := books_balance rfl history
  have lines : ∃ lines report, Journal.outcomeEntries Stumbling.suite ⟨1⟩ well =
      lines ++ [Journal.progressEntry ⟨1⟩ 0, Journal.summaryEntry ⟨1⟩ report] := by
    cases ok : well.verdict with
    | error fault =>
        rw [ok] at hmodules
        cases hmodules
    | ok report =>
        rw [ok] at hmodules
        have worked : report.modules ≠ [] := by
          intro none
          simp [Except.toOption, none] at hmodules
        obtain ⟨lines, hlines⟩ := ((further 3 ⟨1⟩).2 well hwell).2 report ok worked shown
        exact ⟨lines, report, hlines⟩
  have afterwards : History Stumbling.suite Tallied.lent [⟨⟨1⟩, refused⟩] refused.program :=
    .cons 3 ⟨1⟩ hrefused .nil
  obtain ⟨_, out, ⟨added, _, trees⟩, _⟩ := books_balance rfl afterwards
  exact ⟨failed, well, refused, hfailed, hverdict, balanced, hpending, hwell, lines, hrefused,
    hfault, (out ⟨0⟩ "util").mpr rfl, added, trees⟩

end Program

end PassEngine
