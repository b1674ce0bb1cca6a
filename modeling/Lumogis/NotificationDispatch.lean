import Lumogis.NotificationPreferences
import Lumogis.Permissions

/-!
# Lumogis.NotificationDispatch

The unified dispatcher: `emit`, with its gate of preferences and quiet hours, the deliveries and the
urgent floor, and `_compute_outcome`. Adapters deliver, skip, fail or raise as they like, and differently
at each call. Each channel of the tier is called at most once and answered for once, but for the floor:
an urgent notification that no push channel delivered calls an in-app channel again whose first call
did not deliver (`FloorRetries`, `emit_sound`).
-/

namespace Lumogis

open Permissions

inductive ChannelStatus where
  | delivered
  | skipped
  | failed
  deriving DecidableEq

structure ChannelDeliveryResult where
  channel : ChannelId
  status : ChannelStatus
  reason : Option String := none

inductive DispatchOutcome where
  | delivered
  | partially
  | allSkipped
  | failed
  deriving DecidableEq

/-- The fields that `emit` reads or fills in. -/
structure TypedNotification where
  emitId : String := ""
  userId : String
  notificationType : NotificationType
  tier : Option NotificationTier := none

structure DispatchResult where
  emitId : String
  userId : String
  notificationType : NotificationType
  tier : NotificationTier
  channels : List ChannelDeliveryResult
  outcome : DispatchOutcome

/-- A channel's `deliver`: what it returns, or nothing when it raises. It may depend on all deliveries
that have been tried. -/
structure ChannelAdapter (ch : ChannelId) where
  deliver : TypedNotification → List ChannelId → Option ChannelDeliveryResult
  own : ∀ {notification calls result}, deliver notification calls = some result → result.channel = ch

/-- What `emit` reads: the stored settings, the adapters, the clock and a fresh id. The clock gives the
time of day in the zone of a name, or in UTC where there is no such zone. -/
structure EmitEnv where
  policies : TierPolicies
  prefs : StoredPrefs
  settings : String → Option UserSettings
  clock : Option String → TimeOfDay
  adapters : (ch : ChannelId) → Option (ChannelAdapter ch)
  newId : String

/-! ## The gate -/

/-- `_PUSH_CHANNELS`. -/
def isPushChannel : ChannelId → Bool
  | .ntfy => true
  | .webPush => true
  | .inApp => false

def TimeOfDay.micros (t : TimeOfDay) : Nat :=
  ((t.hour * 60 + t.minute) * 60 + t.second) * 1000000 + t.microsecond

def isInQuietHours (t : TimeOfDay) : Option TimeOfDay → Option TimeOfDay → Bool
  | some start, some stop =>
    if start.micros ≤ stop.micros then start.micros ≤ t.micros && t.micros ≤ stop.micros
    else start.micros ≤ t.micros || t.micros ≤ stop.micros
  | _, _ => false

def tierForType (ntype : NotificationType) (override : Option NotificationTier) : NotificationTier :=
  override.getD (typeToTier ntype)

def isChannelEnabledForEmit (policy : TierPolicyRow) (sparse : SparsePrefs) (ntype : NotificationType)
    (ch : ChannelId) : Bool :=
  if policy.defaultChannels.contains ch then (sparse (ntype, ch)).getD true else false

/-- What the gate reads about one notification. -/
structure Gate where
  policy : TierPolicyRow
  sparse : SparsePrefs
  notificationType : NotificationType
  inQuiet : Bool

def Gate.enabled (gate : Gate) (ch : ChannelId) : Bool :=
  isChannelEnabledForEmit gate.policy gate.sparse gate.notificationType ch

/-- A push channel in quiet hours that the tier does not bypass. -/
def Gate.silenced (gate : Gate) (ch : ChannelId) : Bool :=
  gate.inQuiet && !gate.policy.bypassQuietHours && isPushChannel ch

/-- The lists that the loop over the candidates appends to. -/
structure Gated where
  results : List ChannelDeliveryResult := []
  toDeliver : List ChannelId := []
  quietSkippedPush : List ChannelId := []

def gateChannel (gate : Gate) (g : Gated) (ch : ChannelId) : Gated :=
  if !gate.enabled ch then
    { g with results := g.results ++ [⟨ch, .skipped, some "preference_disabled"⟩] }
  else if gate.silenced ch then
    { g with
      quietSkippedPush := g.quietSkippedPush ++ [ch]
      results := g.results ++ [⟨ch, .skipped, some "quiet_hours"⟩] }
  else { g with toDeliver := g.toDeliver ++ [ch] }

/-- The bypass replaces a skip by a delivery. -/
def liftQuietSkip (g : Gated) (ch : ChannelId) : Gated :=
  { g with
    results := g.results.filter fun r => !(r.channel = ch ∧ r.reason = some "quiet_hours")
    toDeliver := g.toDeliver ++ [ch] }

def gateChannels (gate : Gate) : Gated :=
  let g := gate.policy.defaultChannels.foldl (gateChannel gate) {}
  if g.quietSkippedPush ≠ [] ∧ gate.policy.bypassQuietHours then
    g.quietSkippedPush.foldl liftQuietSkip g
  else g

/-! ## The deliveries -/

/-- The calls of `deliver` so far, and the results. -/
structure Delivery where
  calls : List ChannelId := []
  results : List ChannelDeliveryResult

def deliverTo (env : EmitEnv) (notification : TypedNotification) (d : Delivery) (ch : ChannelId) :
    Delivery :=
  match env.adapters ch with
  | none => { d with results := d.results ++ [⟨ch, .skipped, some "adapter_missing"⟩] }
  | some adapter =>
    { calls := d.calls ++ [ch]
      results := d.results ++
        [(adapter.deliver notification d.calls).getD ⟨ch, .failed, some "delivery_error"⟩] }

def pushDelivered (results : List ChannelDeliveryResult) : Bool :=
  results.any fun r => isPushChannel r.channel && r.status = .delivered

def inAppDelivered (results : List ChannelDeliveryResult) : Bool :=
  results.any fun r => r.channel = .inApp && r.status = .delivered

/-- Where the floor's call raises, no result is appended. -/
def urgentFloor (env : EmitEnv) (gate : Gate) (notification : TypedNotification)
    (tier : NotificationTier) (d : Delivery) : Delivery :=
  if tier = .urgent ∧ !pushDelivered d.results ∧ !inAppDelivered d.results then
    match env.adapters .inApp with
    | some adapter =>
      if gate.policy.defaultChannels.contains .inApp && gate.enabled .inApp then
        { calls := d.calls ++ [.inApp]
          results := d.results ++ (adapter.deliver notification d.calls).toList }
      else d
    | none => d
  else d

def computeOutcome (results : List ChannelDeliveryResult) : DispatchOutcome :=
  let delivered := results.countP (·.status = .delivered)
  let failed := results.countP (·.status = .failed)
  let skipped := results.countP (·.status = .skipped)
  if results = [] then .allSkipped
  else if delivered ≠ 0 ∧ failed = 0 ∧ skipped = 0 then .delivered
  else if delivered ≠ 0 ∧ (failed ≠ 0 ∨ skipped ≠ 0) then .partially
  else if delivered = 0 ∧ 0 < failed then .failed
  else .allSkipped

def gateOf (env : EmitEnv) (notification : TypedNotification) (policy : TierPolicyRow) : Gate :=
  let settings := (env.settings notification.userId).getD {}
  { policy
    sparse := env.prefs notification.userId
    notificationType := notification.notificationType
    inQuiet := isInQuietHours (env.clock settings.timezone) settings.quietHoursStart
      settings.quietHoursEnd }

/-- The notification with its id and its tier filled in. -/
def fillIn (env : EmitEnv) (notification : TypedNotification) : TypedNotification :=
  { notification with
    emitId := if notification.emitId = "" then env.newId else notification.emitId
    tier := some (tierForType notification.notificationType notification.tier) }

/-- The gate and the first call of each channel that gets through. -/
def firstPass (env : EmitEnv) (notification : TypedNotification) (policy : TierPolicyRow) : Delivery :=
  let g := gateChannels (gateOf env notification policy)
  g.toDeliver.foldl (deliverTo env (fillIn env notification)) { results := g.results }

/-- The calls of `deliver`, in order, and what `emit` returns or raises. -/
def emit (env : EmitEnv) (notification : TypedNotification) :
    List ChannelId × Except PrefError DispatchResult :=
  let tier := tierForType notification.notificationType notification.tier
  if strip notification.userId = "" then
    ([], .ok { emitId := notification.emitId
               userId := ""
               notificationType := notification.notificationType
               tier
               channels := []
               outcome := .failed })
  else
    match tierPolicyOf env.policies tier with
    | .error e => ([], .error e)
    | .ok policy =>
      let d := urgentFloor env (gateOf env notification policy) (fillIn env notification) tier
        (firstPass env notification policy)
      (d.calls, .ok { emitId := (fillIn env notification).emitId
                      userId := notification.userId
                      notificationType := notification.notificationType
                      tier
                      channels := d.results
                      outcome := computeOutcome d.results })

/-! ## What is promised -/

/-- An outcome says what the results say. -/
def OutcomeFits (results : List ChannelDeliveryResult) : DispatchOutcome → Prop
  | .delivered => results ≠ [] ∧ ∀ r ∈ results, r.status = .delivered
  | .partially => (∃ r ∈ results, r.status = .delivered) ∧ ∃ r ∈ results, r.status ≠ .delivered
  | .allSkipped => ∀ r ∈ results, r.status = .skipped
  | .failed => (∃ r ∈ results, r.status = .failed) ∧ ∀ r ∈ results, r.status ≠ .delivered

/-- The user is in their quiet hours. -/
def inQuietHours (env : EmitEnv) (userId : String) : Bool :=
  let settings := (env.settings userId).getD {}
  isInQuietHours (env.clock settings.timezone) settings.quietHoursStart settings.quietHoursEnd

/-- A channel that may be called: of the tier, not disabled by the user, and no push channel in quiet
hours that the tier does not bypass. -/
def MayCall (env : EmitEnv) (notification : TypedNotification) (policy : TierPolicyRow)
    (ch : ChannelId) : Prop :=
  ch ∈ policy.defaultChannels ∧
    env.prefs notification.userId (notification.notificationType, ch) ≠ some false ∧
    (inQuietHours env notification.userId → policy.bypassQuietHours = false → isPushChannel ch = false)

/-- Each channel is called at most once, and only where it may be; each channel of the tier has one
result, and the outcome fits the results. -/
structure OneDeliveryPerChannel (env : EmitEnv) (notification : TypedNotification)
    (policy : TierPolicyRow) (calls : List ChannelId) (result : DispatchResult) : Prop where
  once : ∀ ch, calls.count ch ≤ 1
  allowed : ∀ ch ∈ calls, MayCall env notification policy ch
  answered : (result.channels.map ChannelDeliveryResult.channel).Perm policy.defaultChannels
  outcome : OutcomeFits result.channels result.outcome

/-- The floor calls the in-app channel again: the tier is urgent, no push channel has delivered, and the
in-app channel has been called and has not delivered either. -/
def FloorRetries (env : EmitEnv) (notification : TypedNotification) (policy : TierPolicyRow) : Prop :=
  tierForType notification.notificationType notification.tier = .urgent ∧
    ChannelId.inApp ∈ (firstPass env notification policy).calls ∧
    pushDelivered (firstPass env notification policy).results = false ∧
    inAppDelivered (firstPass env notification policy).results = false

/-! ### The gate -/

/-- What the loop over the candidates has done with the channels `chs`. -/
structure Gated.Sorts (gate : Gate) (chs : List ChannelId) (g : Gated) : Prop where
  channels : (g.results.map ChannelDeliveryResult.channel ++ g.toDeliver).Perm chs
  sublist : g.toDeliver.Sublist chs
  passed : ∀ ch, ch ∈ g.toDeliver ↔ ch ∈ chs ∧ gate.enabled ch = true ∧ gate.silenced ch = false
  silenced : ∀ ch ∈ g.quietSkippedPush, gate.silenced ch = true

theorem perm_answer {rs ds chs : List ChannelId} (h : (rs ++ ds).Perm chs) (ch : ChannelId) :
    (rs ++ [ch] ++ ds).Perm (chs ++ [ch]) := by
  rw [List.append_assoc, List.singleton_append]
  exact List.perm_middle.trans ((h.cons ch).trans (List.perm_append_singleton ch chs).symm)

theorem gateChannel_sorts {gate : Gate} {chs : List ChannelId} {g : Gated} (h : g.Sorts gate chs)
    (ch : ChannelId) : (gateChannel gate g ch).Sorts gate (chs ++ [ch]) := by
  have hlater : ∀ ch', ch' ∈ chs ++ [ch] ↔ ch' ∈ chs ∨ ch' = ch := by simp
  unfold gateChannel
  split
  · rename_i hdisabled
    constructor
    · simpa using perm_answer h.channels ch
    · exact h.sublist.trans (List.sublist_append_left _ _)
    · intro ch'
      rw [h.passed, hlater]
      grind
    · exact h.silenced
  · rename_i henabled
    split
    · rename_i hsilenced
      constructor
      · simpa using perm_answer h.channels ch
      · exact h.sublist.trans (List.sublist_append_left _ _)
      · intro ch'
        rw [h.passed, hlater]
        grind
      · intro ch' hch'
        rcases List.mem_append.mp hch' with hch' | hch'
        · exact h.silenced ch' hch'
        · rw [List.mem_singleton.mp hch']
          exact hsilenced
    · rename_i hheard
      constructor
      · simpa [List.append_assoc] using h.channels.append_right [ch]
      · exact h.sublist.append (List.Sublist.refl _)
      · intro ch'
        simp only [List.mem_append, h.passed, List.mem_singleton]
        grind
      · exact h.silenced

theorem foldl_gateChannel_sorts (gate : Gate) (chs : List ChannelId) :
    (chs.foldl (gateChannel gate) {}).Sorts gate chs := by
  induction chs using List.reverseRecOn with
  | nil => constructor <;> simp
  | append_singleton chs ch ih =>
    rw [List.foldl_append]
    exact gateChannel_sorts ih ch

theorem gateChannels_sorts (gate : Gate) : (gateChannels gate).Sorts gate gate.policy.defaultChannels := by
  have h := foldl_gateChannel_sorts gate gate.policy.defaultChannels
  unfold gateChannels
  simp only
  split
  · rename_i hlift
    obtain ⟨ch, hch⟩ := List.exists_mem_of_ne_nil _ hlift.1
    have hsilenced := h.silenced ch hch
    simp [Gate.silenced, hlift.2] at hsilenced
  · exact h

/-! ### The deliveries -/

theorem foldl_deliverTo (env : EmitEnv) (notification : TypedNotification) (chs : List ChannelId) :
    ∀ d : Delivery,
      (chs.foldl (deliverTo env notification) d).calls
        = d.calls ++ chs.filter (fun ch => (env.adapters ch).isSome) ∧
      (chs.foldl (deliverTo env notification) d).results.map ChannelDeliveryResult.channel
        = d.results.map ChannelDeliveryResult.channel ++ chs := by
  induction chs with
  | nil => intro d; simp
  | cons ch chs ih =>
    intro d
    obtain ⟨hcalls, hresults⟩ := ih (deliverTo env notification d ch)
    rw [List.foldl_cons, hcalls, hresults]
    cases hadapter : env.adapters ch with
    | none => simp [deliverTo, hadapter]
    | some adapter =>
      have hown : ((adapter.deliver notification d.calls).getD
          ⟨ch, .failed, some "delivery_error"⟩).channel = ch := by
        cases hdeliver : adapter.deliver notification d.calls with
        | none => rfl
        | some result => exact adapter.own hdeliver
      simp [deliverTo, hadapter, hown]

theorem firstPass_calls (env : EmitEnv) (notification : TypedNotification) (policy : TierPolicyRow) :
    (firstPass env notification policy).calls
      = (gateChannels (gateOf env notification policy)).toDeliver.filter
          (fun ch => (env.adapters ch).isSome) := by
  simpa [firstPass] using
    (foldl_deliverTo env (fillIn env notification) (gateChannels (gateOf env notification policy)).toDeliver
      { results := (gateChannels (gateOf env notification policy)).results }).1

theorem firstPass_channels (env : EmitEnv) (notification : TypedNotification)
    (policy : TierPolicyRow) :
    ((firstPass env notification policy).results.map ChannelDeliveryResult.channel).Perm
      policy.defaultChannels := by
  rw [firstPass, (foldl_deliverTo env (fillIn env notification) _ _).2]
  exact (gateChannels_sorts (gateOf env notification policy)).channels

theorem enabled_iff {gate : Gate} {ch : ChannelId} :
    gate.enabled ch = true
      ↔ ch ∈ gate.policy.defaultChannels ∧ gate.sparse (gate.notificationType, ch) ≠ some false := by
  unfold Gate.enabled isChannelEnabledForEmit
  by_cases hmem : ch ∈ gate.policy.defaultChannels
  · cases hstored : gate.sparse (gate.notificationType, ch) with
    | none => simp [hmem]
    | some b => simp [hmem]
  · simp [hmem]

theorem mem_firstPass_calls {env : EmitEnv} {notification : TypedNotification}
    {policy : TierPolicyRow} {ch : ChannelId} :
    ch ∈ (firstPass env notification policy).calls
      ↔ MayCall env notification policy ch ∧ (env.adapters ch).isSome := by
  rw [firstPass_calls, List.mem_filter, (gateChannels_sorts _).passed, enabled_iff]
  have hsilenced : (gateOf env notification policy).silenced ch = false
      ↔ (inQuietHours env notification.userId → policy.bypassQuietHours = false →
          isPushChannel ch = false) := by
    simp [Gate.silenced, gateOf, inQuietHours]
  rw [hsilenced]
  simp only [MayCall, gateOf]
  tauto

theorem firstPass_once (env : EmitEnv) (notification : TypedNotification) {policy : TierPolicyRow}
    (hpolicy : policy.defaultChannels.Nodup) (ch : ChannelId) :
    (firstPass env notification policy).calls.count ch ≤ 1 := by
  rw [firstPass_calls]
  have hsub := (gateChannels_sorts (gateOf env notification policy)).sublist
  exact List.nodup_iff_count_le_one.mp ((hpolicy.sublist hsub).filter _) ch

/-! ### The floor and the outcome -/

theorem urgentFloor_cases (env : EmitEnv) (notification : TypedNotification) (policy : TierPolicyRow) :
    urgentFloor env (gateOf env notification policy) (fillIn env notification)
        (tierForType notification.notificationType notification.tier)
        (firstPass env notification policy) = firstPass env notification policy ∨
      FloorRetries env notification policy ∧
        (urgentFloor env (gateOf env notification policy) (fillIn env notification)
          (tierForType notification.notificationType notification.tier)
          (firstPass env notification policy)).calls
            = (firstPass env notification policy).calls ++ [.inApp] := by
  unfold urgentFloor
  split
  · rename_i hzero
    cases hadapter : env.adapters .inApp with
    | none => simp
    | some adapter =>
      simp only
      split
      · rename_i hopen
        have hcalled : ChannelId.inApp ∈ (firstPass env notification policy).calls := by
          rw [mem_firstPass_calls]
          have henabled := enabled_iff.mp (Bool.and_eq_true_iff.mp hopen).2
          exact ⟨⟨henabled.1, henabled.2, fun _ _ => rfl⟩, by simp [hadapter]⟩
        exact .inr ⟨⟨hzero.1, hcalled, by simpa using hzero.2.1, by simpa using hzero.2.2⟩, rfl⟩
      · exact .inl rfl
  · exact .inl rfl

theorem computeOutcome_fits (results : List ChannelDeliveryResult) :
    OutcomeFits results (computeOutcome results) := by
  have hzero : ∀ status, results.countP (·.status = status) = 0 ↔ ∀ r ∈ results, r.status ≠ status := by
    simp [List.countP_eq_zero]
  have hsome : ∀ status, results.countP (·.status = status) ≠ 0 ↔ ∃ r ∈ results, r.status = status := by
    intro status
    simp [hzero]
  by_cases hdelivered : results.countP (·.status = .delivered) = 0
  · by_cases hfailed : results.countP (·.status = .failed) = 0
    · have houtcome : computeOutcome results = .allSkipped := by
        simp [computeOutcome, hdelivered, hfailed]
      rw [houtcome]
      intro r hr
      have hnotDelivered := (hzero _).mp hdelivered r hr
      have hnotFailed := (hzero _).mp hfailed r hr
      cases hstatus : r.status <;> simp_all
    · have hnil : results ≠ [] := by
        rintro rfl
        simp at hfailed
      have houtcome : computeOutcome results = .failed := by
        simp [computeOutcome, hdelivered, hnil, Nat.pos_of_ne_zero hfailed]
      rw [houtcome]
      exact ⟨(hsome _).mp hfailed, (hzero _).mp hdelivered⟩
  · have hnil : results ≠ [] := by
      rintro rfl
      simp at hdelivered
    by_cases hall : results.countP (·.status = .failed) = 0 ∧ results.countP (·.status = .skipped) = 0
    · have houtcome : computeOutcome results = .delivered := by
        simp [computeOutcome, hdelivered, hnil, hall]
      rw [houtcome]
      refine ⟨hnil, fun r hr => ?_⟩
      have hnotFailed := (hzero _).mp hall.1 r hr
      have hnotSkipped := (hzero _).mp hall.2 r hr
      cases hstatus : r.status <;> simp_all
    · have hother : results.countP (·.status = .failed) ≠ 0 ∨
          results.countP (·.status = .skipped) ≠ 0 := by omega
      have houtcome : computeOutcome results = .partially := by
        simp only [computeOutcome, hnil, hdelivered, hall, hother, if_false, if_true, ne_eq,
          not_false_eq_true, true_and]
      rw [houtcome]
      refine ⟨(hsome _).mp hdelivered, ?_⟩
      rcases hother with hother | hother
      · obtain ⟨r, hr, hstatus⟩ := (hsome _).mp hother
        exact ⟨r, hr, by simp [hstatus]⟩
      · obtain ⟨r, hr, hstatus⟩ := (hsome _).mp hother
        exact ⟨r, hr, by simp [hstatus]⟩

/-! ### The whole of it -/

/-- What `emit` does for every notification: it refuses a blank user, it calls only channels that it may
call, and all that is promised holds unless the floor calls the in-app channel again. -/
structure EmitSound (env : EmitEnv) (notification : TypedNotification) (policy : TierPolicyRow)
    (calls : List ChannelId) (result : DispatchResult) : Prop where
  blank : strip notification.userId = "" →
    calls = [] ∧ result.channels = [] ∧ result.outcome = .failed
  allowed : ∀ ch ∈ calls, MayCall env notification policy ch
  pushOnce : ∀ ch, isPushChannel ch = true → calls.count ch ≤ 1
  outcome : strip notification.userId ≠ "" → OutcomeFits result.channels result.outcome
  oneDelivery : strip notification.userId ≠ "" → ¬ FloorRetries env notification policy →
    OneDeliveryPerChannel env notification policy calls result

/-- The calls of `emit` and its result, where the tier has a policy. -/
theorem emit_sound (env : EmitEnv) (notification : TypedNotification) (policy : TierPolicyRow)
    (hpolicy : env.policies (tierForType notification.notificationType notification.tier) = some policy)
    (hnodup : policy.defaultChannels.Nodup) :
    ∃ result, (emit env notification).2 = .ok result ∧
      EmitSound env notification policy (emit env notification).1 result := by
  by_cases hblank : strip notification.userId = ""
  · simp only [emit, hblank, if_true]
    refine ⟨_, rfl, ?_⟩
    constructor <;> simp [hblank]
  · simp only [emit, hblank, if_false, tierPolicyOf, hpolicy]
    refine ⟨_, rfl, ?_⟩
    have hfirst : ∀ ch ∈ (firstPass env notification policy).calls, MayCall env notification policy ch :=
      fun ch hch => (mem_firstPass_calls.mp hch).1
    constructor
    · intro h
      exact absurd h hblank
    · intro ch hch
      rcases urgentFloor_cases env notification policy with hsame | ⟨hretries, hcalls⟩
      · rw [hsame] at hch
        exact hfirst ch hch
      · rw [hcalls, List.mem_append, List.mem_singleton] at hch
        rcases hch with hch | rfl
        · exact hfirst ch hch
        · exact hfirst _ hretries.2.1
    · intro ch hpush
      have honce := firstPass_once env notification hnodup ch
      rcases urgentFloor_cases env notification policy with hsame | ⟨-, hcalls⟩
      · rwa [hsame]
      · cases ch with
        | inApp => cases hpush
        | ntfy => simpa [hcalls] using honce
        | webPush => simpa [hcalls] using honce
    · intro _
      exact computeOutcome_fits _
    · intro _ hfloor
      rcases urgentFloor_cases env notification policy with hsame | ⟨hretries, -⟩
      · simp only [hsame]
        exact {
          once := firstPass_once env notification hnodup
          allowed := hfirst
          answered := firstPass_channels env notification policy
          outcome := computeOutcome_fits _ }
      · exact absurd hretries hfloor

/-- An in-app channel that reports a failure at every call. -/
def failingInApp : ChannelAdapter .inApp where
  deliver _ _ := some ⟨.inApp, .failed, some "delivery_error"⟩
  own h := by cases h; rfl

/-- The seeded policies, nothing stored, and no adapter but a failing in-app channel. -/
def bareEnv : EmitEnv where
  policies := seedTierPolicies
  prefs _ _ := none
  settings _ := none
  clock _ := ⟨0, 0, 0, 0⟩
  adapters
    | .inApp => some failingInApp
    | .ntfy => none
    | .webPush => none
  newId := "e1"

def urgentPolicy : TierPolicyRow := ⟨.urgent, true, [.ntfy, .webPush, .inApp]⟩

theorem emit_sound_bare :
    ∃ result, (emit bareEnv { userId := "alice", notificationType := .securityAlert }).2 = .ok result ∧
      EmitSound bareEnv { userId := "alice", notificationType := .securityAlert } urgentPolicy
        (emit bareEnv { userId := "alice", notificationType := .securityAlert }).1 result :=
  emit_sound bareEnv { userId := "alice", notificationType := .securityAlert } urgentPolicy rfl (by decide)

/-- A blank user is refused, and has no result for any channel. -/
theorem emit_blank_user :
    ∃ result, emit bareEnv { userId := "", notificationType := .securityAlert } = ([], .ok result) ∧
      ¬ OneDeliveryPerChannel bareEnv { userId := "", notificationType := .securityAlert } urgentPolicy
        [] result := by
  refine ⟨_, rfl, fun h => ?_⟩
  have hanswered := h.answered.length_eq
  simp [urgentPolicy] at hanswered

end Lumogis
