import PassEngine.Proofs.Program.Attempts
import PassEngine.Proofs.Run.Budget

/-!
# What a call costs

A limit on the refreshes ends every attempt, and it bounds the executions that the attempt takes. A
call attempts no module twice, so that it costs so much for each module that is registered when it
ends. An entry that is not registered costs an attempt as well, but no execution.
-/

namespace PassEngine

variable {ρ τ : Type}

/-- What passes executed in a visit, in order. -/
def Visit.executions (visit : Visit ρ) : List (Execution ρ) :=
  (visit.transcript.map Transcript.executions).getD []

/-- What passes executed in a call, in order. -/
def ProgramOutcome.executions (outcome : ProgramOutcome ρ τ) : List (Execution ρ) :=
  outcome.visits.flatMap Visit.executions

/-- What passes executed in a call so far, in order. -/
def Tour.executions (tour : Tour ρ τ) : List (Execution ρ) :=
  tour.visits.reverse.flatMap Visit.executions

theorem Tour.length_executions_cons {tour next : Tour ρ τ} {visit : Visit ρ}
    (h : next.visits = visit :: tour.visits) :
    next.executions.length = tour.executions.length + visit.executions.length := by
  simp [executions, h]

variable [DecidableEq ρ]

/-! ## Attempts under a limit -/

namespace Engine

variable {engine : Engine ρ} {suite : PassSuite ρ τ} {fuel limit : Nat}

/-- How many executions a limit can pay for in one attempt. -/
def allowance (engine : Engine ρ) (limit : Nat) : Nat :=
  limit * (engine.table.scope engine.settings).length

omit [DecidableEq ρ] in
theorem conclude_returns {subject : Subject} {run : Run ρ τ} {slot : Slot τ}
    (present : run.store.slot? subject.id = some slot) (stopped : run.status ≠ .running) :
    ∃ attempt, conclude suite subject run = some attempt := by
  have hverdict : run.verdict? suite subject ≠ none := mt Run.verdict?_eq_none_iff.mp stopped
  obtain ⟨verdict, hverdict⟩ := Option.ne_none_iff_exists'.mp hverdict
  rw [conclude_eq present, hverdict]
  exact ⟨_, rfl⟩

theorem attempt_returns (limited : engine.settings.refreshLimit = some limit)
    (enough : engine.allowance limit ≤ fuel) (id : ModuleId) (store : ModuleStore τ) :
    ∃ attempt, engine.attempt suite fuel id store = some attempt := by
  rw [attempt_eq]
  cases hslot : store.slot? id with
  | none => exact ⟨_, rfl⟩
  | some slot =>
      obtain ⟨name, held⟩ := slot
      cases held with
      | none => exact ⟨_, rfl⟩
      | some tree =>
          obtain ⟨slot, hpresent, _⟩ := slot?_run engine suite fuel ⟨id, name⟩ hslot
          have stopped := stopped_of_limit suite ⟨id, name⟩ tree (store.putTree id none) limited
          refine conclude_returns hpresent ?_
          rw [run_of_stopped enough stopped]
          exact stopped

theorem executions_of_unknown {id : ModuleId} {store : ModuleStore τ} {attempt : Attempt ρ τ}
    (h : engine.attempt suite fuel id store = some attempt) (unknown : id ∉ store.ids)
    (left : Option Nat) : (Visit.mk attempt.transcript left).executions = [] := by
  rcases attempt_spec h with ⟨_, rfl⟩ | ⟨_, _, rfl⟩ | ⟨name, tree, hslot, _⟩
  · rfl
  · rfl
  · exact absurd (ModuleStore.mem_ids.mpr (ModuleStore.lt_size_iff.mpr ⟨_, hslot⟩)) unknown

theorem executions_of_attempt (limited : engine.settings.refreshLimit = some limit) {id : ModuleId}
    {store : ModuleStore τ} {attempt : Attempt ρ τ}
    (h : engine.attempt suite fuel id store = some attempt) (left : Option Nat) :
    (Visit.mk attempt.transcript left).executions.length ≤ engine.allowance limit := by
  rcases attempt_spec h with ⟨_, rfl⟩ | ⟨_, _, rfl⟩ | ⟨name, tree, _, _, _, htranscript⟩
  · exact Nat.zero_le _
  · exact Nat.zero_le _
  · rw [htranscript]
    exact (withinLimit_run engine suite fuel ⟨id, name⟩ tree (store.putTree id none)
      limited).executions

end Engine

/-! ## Attempts in a row -/

namespace Tour

variable {suite : PassSuite ρ τ} {fuel limit : Nat} {entry : ModuleId} {tour last : Tour ρ τ}
  {finished : List ModuleId} {said : List (Exchange τ)} {verdict : Except Fault Unit}

theorem Completes.costs (limited : tour.program.engine.settings.refreshLimit = some limit)
    (h : Completes suite fuel entry tour finished said last) :
    last.visits.length = tour.visits.length + finished.length ∧
      last.executions.length ≤
        tour.executions.length + finished.length * tour.program.engine.allowance limit := by
  induction h with
  | nil => simp
  | @cons tour last id attempt report finished said _ attempted _ _ ih =>
      let next := tour.complete id attempt report
      have hvisit : next.visits =
          ⟨attempt.transcript, some next.program.pending⟩ :: tour.visits := rfl
      have hpaid := Engine.executions_of_attempt limited attempted (some next.program.pending)
      have hmore := length_executions_cons hvisit
      have hlength := congrArg List.length hvisit
      obtain ⟨hvisits, hexecutions⟩ := ih limited
      change last.executions.length ≤
        next.executions.length + finished.length * tour.program.engine.allowance limit
          at hexecutions
      change last.visits.length = next.visits.length + finished.length at hvisits
      rw [List.length_cons] at hlength
      rw [List.length_cons, Nat.succ_mul]
      omega

theorem Fails.eq_entry_of_unknown {attempt : Attempt ρ τ} {fault : Fault} {failing : ModuleId}
    (h : Fails suite fuel entry tour failing attempt fault)
    (unknown : failing ∉ tour.program.store.ids) : failing = entry := by
  by_contra hne
  exact unknown (ModuleStore.mem_ids.mpr ((Program.due_spec h.due).2 hne).2.1)

/-- No module is tried twice. -/
theorem Fails.nodup {attempt : Attempt ρ τ} {fault : Fault} {failing : ModuleId}
    (completes : Completes suite fuel entry tour finished said last)
    (h : Fails suite fuel entry last failing attempt fault) :
    (failing :: finished.reverse).Nodup := by
  refine List.nodup_cons.mpr ⟨?_, completes.advances.nodup⟩
  intro hfinished
  refine Program.not_mem_done_of_due h.due ?_
  rw [completes.done_eq]
  exact List.mem_append_left _ hfinished

/-- A call tries different registered modules, and the executions on each of them are within the
allowance. If it tries anything else, that is the entry. -/
theorem Ends.tried {program : Program ρ τ}
    (limited : program.engine.settings.refreshLimit = some limit)
    (h : Ends suite fuel entry { program } verdict last) :
    ∃ tried : List ModuleId,
      tried.Nodup ∧ (∀ id ∈ tried, id.index < last.program.store.size) ∧
      last.visits.length ≤ tried.length + (if entry ∈ program.store.ids then 0 else 1) ∧
      last.executions.length ≤ tried.length * program.engine.allowance limit := by
  cases h with
  | @well finished _ _ completes _ =>
      obtain ⟨hvisits, hexecutions⟩ := completes.costs limited
      have advances := completes.advances
      refine ⟨finished.reverse, advances.nodup, advances.registered, ?_, ?_⟩
      · rw [List.length_reverse, hvisits, List.length_nil]
        omega
      · rw [List.length_reverse]
        exact Nat.le_trans hexecutions (Nat.le_of_eq (Nat.zero_add _))
  | @badly finished _ tour failing attempt _ completes fails =>
      obtain ⟨hvisits, hexecutions⟩ := completes.costs limited
      have hvisit : (tour.abandon attempt).visits = ⟨attempt.transcript, none⟩ :: tour.visits := rfl
      have hmore := length_executions_cons hvisit
      have advances := completes.advances.trans (advances_abandon fails.attempted)
      rw [List.nil_append] at advances
      rw [hvisit, List.length_cons, hvisits, hmore, List.length_nil]
      have hexecutions : tour.executions.length ≤
          0 + finished.length * program.engine.allowance limit := hexecutions
      by_cases known : failing ∈ tour.program.store.ids
      · have hpaid := Engine.executions_of_attempt (completes.engine_eq ▸ limited)
          fails.attempted none
        rw [completes.engine_eq] at hpaid
        have hpaid : _ ≤ program.engine.allowance limit := hpaid
        refine ⟨failing :: finished.reverse, fails.nodup completes, ?_, ?_, ?_⟩
        · intro id hid
          rcases List.mem_cons.mp hid with rfl | hfinished
          · exact Nat.lt_of_lt_of_le (ModuleStore.mem_ids.mp known)
              (Engine.size_le_attempt fails.attempted)
          · exact advances.registered id hfinished
        · rw [List.length_cons, List.length_reverse]
          omega
        · rw [List.length_cons, List.length_reverse, Nat.succ_mul]
          omega
      -- nothing is executed on a module that is not registered
      · have unknown : entry ∉ program.store.ids := by
          rw [fails.eq_entry_of_unknown known, ModuleStore.mem_ids] at known
          rw [ModuleStore.mem_ids]
          exact fun hentry => known (Nat.lt_of_lt_of_le hentry completes.advances.size)
        rw [Engine.executions_of_unknown fails.attempted known, if_neg unknown, List.length_nil]
        refine ⟨finished.reverse, advances.nodup, advances.registered, ?_, ?_⟩
        · rw [List.length_reverse]
          omega
        · rw [List.length_reverse]
          omega

end Tour

end PassEngine
