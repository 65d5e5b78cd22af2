/-
Routing as the configuration says it, without the code: which rule a
sender's mails go by (`EffectiveRule`), the targets a rule lists
(`RouteRule.listed`), and so the targets of a sender (`Targets`).
`Context.targets_eq` is that the handler resolves exactly these, in
order, and rejects a sender that has none.
-/
import OxidRelay.Ingress

namespace OxidRelay

variable {routing : RoutingConfig} {sender : String} {W : List RouteTargetConfig}

/-! ## What the configuration says -/

/-- The rule of a sender: its own, under exactly its address, or else the default. -/
inductive EffectiveRule (routing : RoutingConfig) (sender : String) (rule : RouteRule) : Prop
  | own (h : (sender, rule) ∈ routing.senders.entries)
  | byDefault (hnone : ∀ rule, (sender, rule) ∉ routing.senders.entries) (h : routing.defaultRule = some rule)

/-- The transport name that refuses, in any ASCII case. -/
def Rejects (transport : String) : Prop :=
  transport.toList.map Str.toAsciiLowercase = "reject".toList

instance : DecidablePred Rejects := fun _ => inferInstanceAs (Decidable (_ = _))

/-- The targets a rule lists: its `targets` when there are any, else its
single transport if it has one, without those that reject. -/
def RouteRule.listed (rule : RouteRule) : List RouteTargetConfig :=
  let single := rule.transport.map fun transport => (⟨transport, rule.recipients⟩ : RouteTargetConfig)
  let all := if rule.targets.length = 0 then single.toList else rule.targets
  all.filter fun target => ¬ Rejects target.transport

/-- The targets of a sender. Without any rule that is the one target that
names no transport and no recipients. -/
inductive Targets (routing : RoutingConfig) (sender : String) : List RouteTargetConfig → Prop
  | inactive (hdefault : routing.defaultRule = none) (hsenders : routing.senders.entries = []) :
    Targets routing sender [⟨"", []⟩]
  | byRule {rule : RouteRule} (h : EffectiveRule routing sender rule) : Targets routing sender rule.listed
  | norule (hactive : routing.senders.entries ≠ []) (hnone : ∀ rule, ¬ EffectiveRule routing sender rule) :
    Targets routing sender []

/-- A target as the router resolves it. -/
def RouteTargetConfig.resolved (target : RouteTargetConfig) : RouteTarget :=
  ⟨target.transport, recipientOverride target.recipients⟩

/-! ## What the handler resolves -/

variable {rule : RouteRule}

theorem rejects_iff {transport : String} : Str.eqIgnoreAsciiCase transport "reject" = true ↔ Rejects transport := by
  unfold Str.eqIgnoreAsciiCase Rejects
  rw [decide_eq_true_eq]
  exact Iff.rfl

theorem RouteRule.expand_eq (rule : RouteRule) : rule.expand = rule.listed.map RouteTargetConfig.resolved := by
  have hp : (fun target : RouteTargetConfig => !Str.eqIgnoreAsciiCase target.transport "reject") =
      fun target => decide (¬ Rejects target.transport) := by
    funext target
    by_cases h : Rejects target.transport
    · simp [h, rejects_iff.2 h]
    · have := (not_congr rejects_iff).2 h
      simp [h, this]
  unfold expand listed
  by_cases ht : rule.targets = []
  · rw [ht]
    cases rule.transport with
    | none => rfl
    | some transport =>
      have := congrFun hp ⟨transport, rule.recipients⟩
      simp only at this
      by_cases hr : Rejects transport <;> simp [this, hr, RouteTargetConfig.resolved]
  · have hl : rule.targets.length ≠ 0 := by simpa using ht
    simp only [hp, List.isEmpty_eq_false_iff.2 ht, Bool.not_false, if_true, if_neg hl]
    rfl

theorem effectiveRule_iff : EffectiveRule routing sender rule ↔
    (routing.senders.get sender).or routing.defaultRule = some rule := by
  constructor
  · intro h
    cases h with
    | own h => rw [SortedMap.get_eq_some.2 h]; rfl
    | byDefault hnone h => rw [SortedMap.get_eq_none.2 hnone, h]; rfl
  · intro h
    cases hg : routing.senders.get sender with
    | some own =>
      rw [hg] at h
      cases h
      exact .own (SortedMap.get_eq_some.1 hg)
    | none =>
      rw [hg] at h
      exact .byDefault (SortedMap.get_eq_none.1 hg) h

/-- A rule resolves to the targets it lists. -/
theorem RoutingConfig.resolve_of_rule (h : EffectiveRule routing sender rule) :
    routing.resolve sender =
      if rule.listed = [] then .reject else .deliver (rule.listed.map RouteTargetConfig.resolved) := by
  unfold RoutingConfig.resolve
  rw [effectiveRule_iff.1 h]
  simp only [RouteRule.expand_eq, List.isEmpty_iff, List.map_eq_nil_iff]

theorem RoutingConfig.isActive_eq_false :
    routing.isActive = false ↔ routing.defaultRule = none ∧ routing.senders.entries = [] := by
  simp [RoutingConfig.isActive, SortedMap.isEmpty]

/-- **The handler resolves the targets that the configuration lists.** -/
theorem Context.targets_eq (ctx : Context) (h : Targets ctx.routing sender W) :
    ctx.targets sender =
      if W = [] then .error (.custom 550 "sender not permitted") else .ok (W.map RouteTargetConfig.resolved) := by
  unfold Context.targets
  cases h with
  | inactive hdefault hsenders =>
    rw [RoutingConfig.isActive_eq_false.2 ⟨hdefault, hsenders⟩]
    rfl
  | byRule hrule =>
    rename_i rule
    have hactive : ctx.routing.isActive = true := by
      by_contra hf
      obtain ⟨hd, hs⟩ := RoutingConfig.isActive_eq_false.1 (by simpa using hf)
      cases hrule with
      | own h => simp [hs] at h
      | byDefault _ h => simp [hd] at h
    rw [hactive, if_pos rfl, RoutingConfig.resolve_of_rule hrule]
    by_cases hw : rule.listed = [] <;> simp [hw]
  | norule hactive hnone =>
    have hactive : ctx.routing.isActive = true := by
      by_contra hf
      exact hactive (RoutingConfig.isActive_eq_false.1 (by simpa using hf)).2
    have hresolve : ctx.routing.resolve sender = .reject := by
      unfold RoutingConfig.resolve
      cases hg : (ctx.routing.senders.get sender).or ctx.routing.defaultRule with
      | none => rfl
      | some rule => exact absurd (effectiveRule_iff.2 hg) (hnone rule)
    rw [hactive, if_pos rfl, hresolve]
    rfl

/-- Every sender has its targets. -/
theorem Targets.exists (routing : RoutingConfig) (sender : String) : ∃ W, Targets routing sender W := by
  by_cases hr : ∃ rule, EffectiveRule routing sender rule
  · obtain ⟨rule, hr⟩ := hr
    exact ⟨rule.listed, .byRule hr⟩
  · have hnone : ∀ rule, ¬ EffectiveRule routing sender rule := fun rule h => hr ⟨rule, h⟩
    by_cases hs : routing.senders.entries = []
    · refine ⟨_, .inactive ?_ hs⟩
      cases hd : routing.defaultRule with
      | none => rfl
      | some rule => exact absurd (.byDefault (by simp [hs]) hd) (hnone rule)
    · exact ⟨[], .norule hs hnone⟩

end OxidRelay
