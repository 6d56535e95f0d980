import PassEngine.Rule.Table
import PassEngine.Proofs.Agenda

/-!
# What a table contributes, and its scope

What is eligible comes from the contributions of the rules that fire, and a refresh looks at
nothing else. Under fixed settings only the rules whose guards hold can ever fire. Their targets are
the scope of the table: whatever the tags are, nothing outside of it becomes eligible, so that its
length bounds every agenda that the table fills.
-/

namespace PassEngine

variable {ρ : Type}

/-- Whether the settings give every guard of a rule what it asks for. -/
def Rule.allowed (rule : Rule ρ) (settings : Settings) : Bool :=
  rule.guards.all (·.holds settings)

theorem Rule.fires_eq_true_iff {rule : Rule ρ} {tags : TagSet} {settings : Settings} :
    rule.fires tags settings = true ↔
      rule.allowed settings = true ∧ ∀ tag ∈ rule.required, tag ∈ tags := by
  simp [Rule.fires, Rule.allowed]

/-! ## What rules see of the settings -/

theorem Guard.holds_congr {guard : Guard} {first second : Settings}
    (h : first.flag guard.flag = second.flag guard.flag) :
    guard.holds first = guard.holds second := by
  cases guard with
  | enabled flag => exact h
  | disabled flag => exact congrArg not h

theorem Rule.allowed_congr {rule : Rule ρ} {first second : Settings}
    (h : ∀ guard ∈ rule.guards, first.flag guard.flag = second.flag guard.flag) :
    rule.allowed first = rule.allowed second := by
  rw [Bool.eq_iff_iff]
  unfold allowed
  rw [List.all_eq_true, List.all_eq_true]
  constructor
  · intro holds guard hguard
    rw [← Guard.holds_congr (h guard hguard)]
    exact holds guard hguard
  · intro holds guard hguard
    rw [Guard.holds_congr (h guard hguard)]
    exact holds guard hguard

namespace RuleTable

/-! ## What rules contribute -/

/-- The targets of the rules that fire, rule by rule, with their repetitions. -/
def contributions (rules : List (Rule ρ)) (tags : TagSet) (settings : Settings) : List ρ :=
  (rules.filter (·.fires tags settings)).flatMap (·.targets)

@[simp] theorem contributions_nil (tags : TagSet) (settings : Settings) :
    contributions ([] : List (Rule ρ)) tags settings = [] := rfl

theorem contributions_cons (rule : Rule ρ) (rest : List (Rule ρ)) (tags : TagSet)
    (settings : Settings) :
    contributions (rule :: rest) tags settings =
      (if rule.fires tags settings then rule.targets else []) ++
        contributions rest tags settings := by
  cases fires : rule.fires tags settings <;> simp [contributions, fires]

theorem contributions_append (first second : List (Rule ρ)) (tags : TagSet) (settings : Settings) :
    contributions (first ++ second) tags settings =
      contributions first tags settings ++ contributions second tags settings := by
  simp [contributions]

theorem contributions_congr {rules : List (Rule ρ)} {tags other : TagSet}
    {settings changed : Settings}
    (h : ∀ rule ∈ rules, rule.fires tags settings = rule.fires other changed) :
    contributions rules tags settings = contributions rules other changed := by
  unfold contributions
  rw [List.filter_congr h]

variable [DecidableEq ρ]

theorem eligible_eq (table : RuleTable ρ) (tags : TagSet) (settings : Settings) :
    table.eligible tags settings = (contributions table.rules tags settings).eraseDups := rfl

/-- Eligibility depends on the flags that the guards of the table mention, and on nothing else of
the settings. -/
theorem eligible_congr {table : RuleTable ρ} {first second : Settings}
    (h : ∀ rule ∈ table.rules, ∀ guard ∈ rule.guards,
      first.flag guard.flag = second.flag guard.flag) (tags : TagSet) :
    table.eligible tags first = table.eligible tags second := by
  rw [eligible_eq, eligible_eq]
  apply congrArg List.eraseDups
  apply contributions_congr
  intro rule hrule
  have hallowed := Rule.allowed_congr (h rule hrule)
  unfold Rule.allowed at hallowed
  unfold Rule.fires
  rw [hallowed]

/-- Rules ask for the presence of tags only, so that more tags make no pass ineligible. -/
theorem eligible_mono (table : RuleTable ρ) (settings : Settings) {fewer more : TagSet}
    (le : ∀ tag, tag ∈ fewer → tag ∈ more) :
    table.eligible fewer settings ⊆ table.eligible more settings := by
  intro pass hpass
  obtain ⟨rule, hrule, fires, htarget⟩ := mem_eligible.mp hpass
  obtain ⟨allowed, required⟩ := Rule.fires_eq_true_iff.mp fires
  refine mem_eligible.mpr ⟨rule, hrule, ?_, htarget⟩
  exact Rule.fires_eq_true_iff.mpr ⟨allowed, fun tag htag => le tag (required tag htag)⟩

/-- Every rule of a table requires a tag, so that none fires when nothing was emitted. -/
theorem eligible_empty (table : RuleTable ρ) (settings : Settings) :
    table.eligible .empty settings = [] := by
  apply List.eq_nil_iff_forall_not_mem.mpr
  intro pass hpass
  obtain ⟨rule, hrule, fires, _⟩ := mem_eligible.mp hpass
  have hrequired := (Rule.fires_eq_true_iff.mp fires).2
  obtain ⟨tag, htag⟩ := List.exists_mem_of_ne_nil rule.required (table.wellFormed rule hrule).2
  exact TagSet.not_mem_empty tag (hrequired tag htag)

/-! ## The scope -/

/-- The targets of the rules whose guards hold, each once. -/
def scope (table : RuleTable ρ) (settings : Settings) : List ρ :=
  ((table.rules.filter (·.allowed settings)).flatMap (·.targets)).eraseDups

theorem mem_scope {table : RuleTable ρ} {settings : Settings} {pass : ρ} :
    pass ∈ table.scope settings ↔
      ∃ rule ∈ table.rules, rule.allowed settings = true ∧ pass ∈ rule.targets := by
  simp [scope, and_assoc]

theorem eligible_subset_scope (table : RuleTable ρ) (tags : TagSet) (settings : Settings) :
    table.eligible tags settings ⊆ table.scope settings := by
  intro pass h
  obtain ⟨rule, hrule, fires, htarget⟩ := mem_eligible.mp h
  exact mem_scope.mpr ⟨rule, hrule, (Rule.fires_eq_true_iff.mp fires).1, htarget⟩

/-! ## Refreshes -/

theorem refresh_agenda (table : RuleTable ρ) (tags : TagSet) (settings : Settings)
    (agenda : Agenda ρ) :
    (table.refresh tags settings agenda).agenda =
      (agenda.pushAll (table.eligible tags settings)).2 := rfl

theorem mem_refresh {table : RuleTable ρ} {tags : TagSet} {settings : Settings}
    {agenda : Agenda ρ} {pass : ρ} :
    pass ∈ (table.refresh tags settings agenda).agenda.toList ↔
      pass ∈ agenda.toList ∨ pass ∈ table.eligible tags settings :=
  Agenda.mem_pushAll

theorem refresh_empty (table : RuleTable ρ) (settings : Settings) (agenda : Agenda ρ) :
    table.refresh .empty settings agenda = ⟨0, .empty, agenda⟩ := by
  unfold refresh
  rw [eligible_empty, Agenda.pushAll_nil]

/-- A refresh looks at the rules, the tags and the settings for what is eligible only. -/
theorem refresh_congr {table other : RuleTable ρ} {tags heard : TagSet}
    {settings changed : Settings}
    (same : table.eligible tags settings = other.eligible heard changed) (agenda : Agenda ρ) :
    table.refresh tags settings agenda = other.refresh heard changed agenda := by
  unfold refresh
  rw [same]

end RuleTable

end PassEngine
