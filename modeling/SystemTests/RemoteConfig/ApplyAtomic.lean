import SystemTests.RemoteConfig.ConfigState

/-!
# When `apply` is interrupted (`utils/_remote_config.py`)

`apply` calls `send_state` once, or twice where an empty configuration comes
first; each of the calls may raise.  What the state ought to hold is what its
operations say, whether or not an `apply` between them was interrupted.

**Results.**
* `applySending_fst`: a call that raises last leaves what a call that returns leaves.
* `applySending_targets`: what an `apply` leaves of the targets.
* `failureAtomic_iff`: when the targets are those of the operations, all along a run.
-/

namespace SystemTests
namespace RemoteConfig

open Foundation Foundation.Text Foundation.Json

/-- The two calls of `send_state` in `apply`. -/
inductive Sending where
  | empty
  | targets
deriving DecidableEq

inductive Operation where
  | setConfig (path : Str) (config : Config) (configFileVersion : Option Int)
  | delConfig (path : Str)
  | reset
  /-- `raisesAt`: the call that raises, if there is one. -/
  | apply (raisesAt : Option Sending)
  /-- Another state sets a config. -/
  | otherSetConfig (path : Str) (config : Config) (configFileVersion : Int)

section Operate

variable (crypto : Crypto) (library : Str)

def sendTargets (raises : Bool) (s : Session) : Session × Bool :=
  let (sent, built) := sendPayload crypto { s with state := { s.state with
    resetPending := false, version := s.state.version + 1 } }
  (sent, built && !raises)

/-- The empty configuration is sent first. -/
def SendsEmpty (s : Session) : Prop :=
  s.state.resetPending = true ∧ s.state.targets.items ≠ [] ∧
    (library = "golang" ∨ library = "java")

instance (s : Session) : Decidable (SendsEmpty library s) :=
  inferInstanceAs (Decidable (_ ∧ _ ∧ _))

/-- `apply`, and whether it returns. -/
def applySending (raisesAt : Option Sending) (s : Session) : Session × Bool :=
  if SendsEmpty library s then
    let (s', goesOn) := applyReset crypto (decide (raisesAt = some .empty)) s
    if goesOn then sendTargets crypto (decide (raisesAt = some .targets)) s' else (s', false)
  else sendTargets crypto (decide (raisesAt = some .targets)) s

def operate (s : Session) : Operation → Option Session
  | .setConfig path config configFileVersion => some (setConfig crypto path config configFileVersion s)
  | .delConfig path => some (delConfig path s)
  | .reset => some (reset s)
  | .apply raisesAt => some (applySending crypto library raisesAt s).1
  | .otherSetConfig path config configFileVersion =>
      some (otherSetConfig crypto path config configFileVersion s)

/-- What an operation says about the targets; an `apply` says nothing. -/
def intend (s : Session) (targets : Dict Str ClientConfig) : Operation → Dict Str ClientConfig
  | .setConfig path config configFileVersion =>
      match newClientConfig crypto s.store path config
          (configFileVersion.getD (s.state.version + 1 : Nat)) with
      | .error _ => targets
      | .ok (clientConfig, _) => targets.set path clientConfig
  | .delConfig path => targets.erase path
  | .reset => .empty
  | .apply _ => targets
  | .otherSetConfig _ _ _ => targets

/-- A session, and the targets that its operations say. -/
def operateIntending (p : Session × Dict Str ClientConfig) (op : Operation) :
    Option (Session × Dict Str ClientConfig) :=
  (operate crypto library p.1 op).map fun s => (s, intend crypto p.1 p.2 op)

/-- The empty configuration is sent first, and that call raises. -/
def Interrupts (s : Session) (op : Operation) : Prop :=
  op = .apply (some .empty) ∧ SendsEmpty library s

end Operate

section Targets

variable {crypto : Crypto} {library : Str}

theorem sendPayload_state (s : Session) : (sendPayload crypto s).1.state = s.state := by
  unfold sendPayload
  split <;> rfl

theorem sendTargets_fst (raises : Bool) (s : Session) :
    (sendTargets crypto raises s).1 = applyTargets crypto s := rfl

theorem applyConfigs_eq (sendRaises : Bool) (s : Session) :
    applyConfigs crypto library sendRaises s =
      if SendsEmpty library s then
        if (applyReset crypto sendRaises s).2 then
          applyTargets crypto (applyReset crypto sendRaises s).1
        else (applyReset crypto sendRaises s).1
      else applyTargets crypto s := rfl

/-- What an `apply` leaves does not depend on whether the last call returns. -/
theorem applySending_fst (raisesAt : Option Sending) (s : Session) :
    (applySending crypto library raisesAt s).1 =
      applyConfigs crypto library (decide (raisesAt = some .empty)) s := by
  rw [applyConfigs_eq, applySending]
  split_ifs with hempty hgoesOn
  · dsimp only
    rw [if_pos hgoesOn, sendTargets_fst]
  · dsimp only
    rw [if_neg hgoesOn]
  · rw [sendTargets_fst]

variable (crypto) in
theorem applyReset_spec (raises : Bool) (s : Session) :
    (applyReset crypto raises s).2 = !raises ∧
      (applyReset crypto raises s).1.state.targets = if raises then .empty else s.state.targets := by
  have hbuilt : ∀ cleared : Session, cleared.state.targets = .empty →
      (sendPayload crypto cleared).2 = true := by
    intro cleared htargets
    rw [sendPayload, toPayload, htargets]
    rfl
  unfold applyReset
  dsimp only
  rw [hbuilt _ rfl]
  cases raises with
  | true =>
      refine ⟨rfl, ?_⟩
      show (sendPayload crypto _).1.state.targets = _
      rw [sendPayload_state]
      rfl
  | false => exact ⟨rfl, rfl⟩

theorem applyTargets_targets (s : Session) :
    (applyTargets crypto s).state.targets = s.state.targets := by
  rw [applyTargets, sendPayload_state]

theorem applyConfigs_targets (sendRaises : Bool) (s : Session) :
    (applyConfigs crypto library sendRaises s).state.targets =
      if sendRaises = true ∧ SendsEmpty library s then .empty else s.state.targets := by
  obtain ⟨hgoesOn, htargets⟩ := applyReset_spec crypto sendRaises s
  rw [applyConfigs_eq, hgoesOn]
  cases sendRaises with
  | true =>
      simp only [Bool.not_true, Bool.false_eq_true, if_false, true_and]
      split_ifs
      · exact htargets
      · exact applyTargets_targets s
  | false =>
      simp only [Bool.not_false, if_true, Bool.false_eq_true, false_and, if_false]
      split_ifs
      · exact (applyTargets_targets _).trans htargets
      · exact applyTargets_targets s

variable (crypto library) in
/-- **An `apply` keeps the targets** unless its empty configuration could not be sent. -/
theorem applySending_targets (raisesAt : Option Sending) (s : Session) :
    (applySending crypto library raisesAt s).1.state.targets =
      if raisesAt = some .empty ∧ SendsEmpty library s then .empty else s.state.targets := by
  rw [applySending_fst, applyConfigs_targets]
  simp only [decide_eq_true_eq]

/-- An `apply` that returns has sent its targets last. -/
theorem emitted_of_applySending {raisesAt : Option Sending} {s s' : Session}
    (h : applySending crypto library raisesAt s = (s', true)) :
    ∃ payload, toPayload crypto s'.state = .ok payload ∧ s'.emitted.getLast? = some payload := by
  have hsend : ∀ (raises : Bool) (t : Session), sendTargets crypto raises t = (s', true) →
      ∃ payload, toPayload crypto s'.state = .ok payload ∧ s'.emitted.getLast? = some payload := by
    intro raises t ht
    rw [sendTargets, sendPayload] at ht
    split at ht
    · rename_i sent built hsent
      split at hsent
      · rw [Prod.mk.injEq] at hsent ht
        rw [← hsent.2, Bool.false_and] at ht
        cases ht.2
      · rename_i payload hpayload
        rw [Prod.mk.injEq] at hsent ht
        rw [← ht.1, ← hsent.1]
        exact ⟨payload, hpayload, List.getLast?_concat⟩
  rw [applySending] at h
  split_ifs at h with hempty
  · dsimp only at h
    split_ifs at h
    · exact hsend _ _ h
    · cases h
  · exact hsend _ _ h

end Targets

section Runs

variable (crypto : Crypto) (library : Str)

/-- All along a run the targets are those that the operations say, and an `apply` that is tried
again and returns has sent them. -/
def FailureAtomic (s₀ : Session) (ops : List Operation) : Prop :=
  ∀ before after s targets, ops = before ++ after →
    run (operateIntending crypto library) (s₀, s₀.state.targets) before = some (s, targets) →
    s.state.targets = targets ∧
      ∀ s', applySending crypto library none s = (s', true) →
        s'.state.targets = targets ∧
          ∃ payload, toPayload crypto s'.state = .ok payload ∧ s'.emitted.getLast? = some payload

variable {crypto library}

/-- One operation changes the targets as it says, unless it is interrupted. -/
theorem operate_targets {s s' : Session} {op : Operation}
    (hstep : operate crypto library s op = some s') (hallowed : ¬ Interrupts library s op) :
    s'.state.targets = intend crypto s s.state.targets op := by
  cases op with
  | setConfig path config configFileVersion =>
      rw [operate, Option.some.injEq] at hstep
      rw [← hstep]
      cases hnew : newClientConfig crypto s.store path config
          (configFileVersion.getD (s.state.version + 1 : Nat)) with
      | error e => simp only [setConfig, intend, hnew]
      | ok result => simp only [setConfig, intend, hnew]
  | delConfig path =>
      rw [operate, Option.some.injEq] at hstep
      exact hstep ▸ rfl
  | reset =>
      rw [operate, Option.some.injEq] at hstep
      exact hstep ▸ rfl
  | apply raisesAt =>
      rw [operate, Option.some.injEq] at hstep
      rw [← hstep, applySending_targets, if_neg]
      · rfl
      · rintro ⟨hraises, hempty⟩
        exact hallowed ⟨congrArg Operation.apply hraises, hempty⟩
  | otherSetConfig path config configFileVersion =>
      rw [operate, Option.some.injEq] at hstep
      rw [← hstep]
      unfold otherSetConfig intend
      split
      · rfl
      · rfl

theorem operateIntending_eq_some_iff {p p' : Session × Dict Str ClientConfig} {op : Operation} :
    operateIntending crypto library p op = some p' ↔
      operate crypto library p.1 op = some p'.1 ∧ p'.2 = intend crypto p.1 p.2 op := by
  rw [operateIntending, Option.map_eq_some_iff]
  constructor
  · rintro ⟨s, hs, rfl⟩
    exact ⟨hs, rfl⟩
  · rintro ⟨hs, htargets⟩
    exact ⟨p'.1, hs, by rw [← htargets]⟩

/-- **When `apply` is failure-atomic**: a run holds the targets that its operations say, and
sends them when it is tried again, if and only if no empty configuration failed to be sent. -/
theorem failureAtomic_iff (crypto : Crypto) (library : Str) (s₀ : Session) (ops : List Operation) :
    FailureAtomic crypto library s₀ ops ↔
      Along (operateIntending crypto library) (fun p op => ¬ Interrupts library p.1 op)
        (s₀, s₀.state.targets) ops := by
  constructor
  · intro h
    refine along_iff.mpr ?_
    rintro before op after ⟨s, targets⟩ rfl hrun ⟨rfl, hempty⟩
    have hbefore : s.state.targets = targets := (h before _ s targets rfl hrun).1
    have hstep : operateIntending crypto library (s, targets) (.apply (some .empty)) =
        some ((applySending crypto library (some .empty) s).1, targets) := rfl
    have hafter := (h (before ++ [.apply (some .empty)]) after _ targets (by simp)
      (run_append.mpr ⟨_, hrun, run_cons_eq_some.mpr ⟨_, hstep, rfl⟩⟩)).1
    rw [applySending_targets, if_pos ⟨rfl, hempty⟩, ← hbefore] at hafter
    -- there were targets before
    exact hempty.2.1 (by rw [← hafter]; rfl)
  · rintro hallowed before after s targets rfl hrun
    have hbefore := ((along_append hrun).mp hallowed).1
    have htargets : s.state.targets = targets := by
      refine run_invariant (P := fun p => p.1.state.targets = p.2) ?_ rfl hbefore hrun
      rintro ⟨t, wanted⟩ op ⟨t', wanted'⟩ (rfl : t.state.targets = wanted) hop hstep
      obtain ⟨hstep, rfl⟩ := operateIntending_eq_some_iff.mp hstep
      exact operate_targets hstep hop
    refine ⟨htargets, fun s' hs' => ⟨?_, emitted_of_applySending hs'⟩⟩
    have hretried := applySending_targets crypto library none s
    rw [hs', if_neg (fun h => by cases h.1)] at hretried
    exact hretried.trans htargets

def sampleConfig : Config :=
  .dict [([0x61], .bool true)] ⟨by simp [ValidString], trivial, trivial⟩

/-- A config is set after a reset, and the empty configuration cannot be sent. -/
theorem interrupted_not_failureAtomic :
    ¬ FailureAtomic sampleCrypto "golang".toList (newSession .empty [])
      [.reset, .setConfig "datadog/2/ASM/a/config" sampleConfig none, .apply (some .empty)] := by
  intro h
  have htargets := (h _ [] _ _ (List.append_nil _).symm rfl).1
  exact absurd (congrArg (fun targets => targets.keys.length) htargets) (by decide)

end Runs

end RemoteConfig
end SystemTests
