import Lumogis.Lib.Dict
import Mathlib.Data.List.TakeWhile
import Mathlib.Logic.Function.Basic

/-!
# Lumogis.NotificationPreferences

Notification types, their tiers, and the preferences of a user: the taxonomy, `_build_cell`,
`get_effective_preferences` and `patch_preferences`. A patch is validated and written item by item, in
autocommit mode, so a refused item leaves the ones before it in place: a patch is all or nothing exactly
when nothing is refused or the items written before the refused one say what is stored already
(`patchPreferences_atomic_iff`).
-/

namespace Lumogis

inductive NotificationType where
  | routineElevation
  | signalReceived
  | signalDigest
  | actionExecuted
  | securityAlert
  | consolidationDone
  deriving DecidableEq

inductive NotificationTier where
  | urgent
  | actionRequired
  | informational
  | background
  deriving DecidableEq

inductive ChannelId where
  | ntfy
  | webPush
  | inApp
  deriving DecidableEq

/-- The members of the enumeration, in the order of its declaration. -/
def notificationTypes : List NotificationType :=
  [.routineElevation, .signalReceived, .signalDigest, .actionExecuted, .securityAlert, .consolidationDone]

/-- `_ALL_CHANNELS`. -/
def allChannels : List ChannelId := [.ntfy, .webPush, .inApp]

/-- `TYPE_TO_TIER`. -/
def typeToTier : NotificationType → NotificationTier
  | .routineElevation => .actionRequired
  | .signalReceived => .informational
  | .signalDigest => .informational
  | .actionExecuted => .actionRequired
  | .securityAlert => .urgent
  | .consolidationDone => .background

structure TierPolicyRow where
  tier : NotificationTier
  bypassQuietHours : Bool
  defaultChannels : List ChannelId

/-- The dictionary that `load_tier_policies` returns. -/
abbrev TierPolicies := NotificationTier → Option TierPolicyRow

/-- The policies that stand in for an empty table. -/
def seedTierPolicies : TierPolicies := fun tier =>
  some { tier
         bypassQuietHours := tier = .urgent
         defaultChannels := if tier = .background then [.inApp] else [.ntfy, .webPush, .inApp] }

/-- The sparse preferences of one user: the rows of `notification_preferences` by their key. -/
abbrev SparsePrefs := NotificationType × ChannelId → Option Bool

abbrev StoredPrefs := String → SparsePrefs

/-- A `time` of PostgreSQL or of Python. -/
structure TimeOfDay where
  hour : Fin 24
  minute : Fin 60
  second : Fin 60
  microsecond : Fin 1000000

def twoDigits (n : Nat) : String := (if n < 10 then "0" else "") ++ toString n

/-- `_time_to_iso`. -/
def timeToIso (t : TimeOfDay) : String :=
  twoDigits t.hour ++ ":" ++ twoDigits t.minute ++ ":" ++ twoDigits t.second

/-- A row of `notification_user_settings`. -/
structure UserSettings where
  timezone : Option String := none
  quietHoursStart : Option TimeOfDay := none
  quietHoursEnd : Option TimeOfDay := none

/-! ## The effective preferences -/

structure PreferenceCell where
  channel : ChannelId
  enabled : Bool
  effective : Bool
  mutable : Bool
  tierDefault : Bool

structure TypePrefsRow where
  notificationType : NotificationType
  tier : NotificationTier
  channels : List PreferenceCell

structure PreferencesResponse where
  types : List TypePrefsRow
  timezone : Option String
  quietHoursStart : Option String
  quietHoursEnd : Option String

inductive PrefError where
  | httpException (status : Nat) (detail : String)
  | keyError (tier : NotificationTier)
  deriving DecidableEq

def tierPolicyOf (policies : TierPolicies) (tier : NotificationTier) : Except PrefError TierPolicyRow :=
  match policies tier with
  | some policy => .ok policy
  | none => .error (.keyError tier)

def buildCell (ntype : NotificationType) (channel : ChannelId) (policy : TierPolicyRow)
    (sparse : SparsePrefs) : PreferenceCell :=
  let inTier := policy.defaultChannels.contains channel
  let enabled := (sparse (ntype, channel)).getD inTier
  { channel
    enabled
    effective := enabled && inTier
    mutable := inTier
    tierDefault := inTier }

def typePrefsRow (policies : TierPolicies) (sparse : SparsePrefs) (ntype : NotificationType) :
    Except PrefError TypePrefsRow := do
  let policy ← tierPolicyOf policies (typeToTier ntype)
  return { notificationType := ntype
           tier := typeToTier ntype
           channels := allChannels.map fun ch => buildCell ntype ch policy sparse }

def getEffectivePreferences (policies : TierPolicies) (settings : Option UserSettings)
    (sparse : SparsePrefs) : Except PrefError PreferencesResponse := do
  let types ← notificationTypes.mapM (typePrefsRow policies sparse)
  let settings := settings.getD {}
  return { types
           timezone := settings.timezone
           quietHoursStart := settings.quietHoursStart.map timeToIso
           quietHoursEnd := settings.quietHoursEnd.map timeToIso }

/-! ## Patching them -/

structure PatchItem where
  notificationType : NotificationType
  channel : ChannelId
  enabled : Bool
  deriving DecidableEq

def PatchItem.key (item : PatchItem) : NotificationType × ChannelId := (item.notificationType, item.channel)

def validatePatchItem (policies : TierPolicies) (item : PatchItem) : Except PrefError Unit := do
  let policy ← tierPolicyOf policies (typeToTier item.notificationType)
  if item.enabled && !(policy.defaultChannels.contains item.channel) then
    throw (.httpException 422 "preference_channel_not_in_tier")

/-- The last item of each key, in the order in which the keys were first mentioned. -/
def mergedItems (patch : List PatchItem) : List PatchItem :=
  (Dict.accumulate PatchItem.key (fun _ item => item) patch).values

/-- The upsert of one row. -/
def storePref (prefs : StoredPrefs) (userId : String) (item : PatchItem) : StoredPrefs :=
  Function.update prefs userId (Function.update (prefs userId) item.key (some item.enabled))

/-- The loop of `patch_preferences`. Each upsert is committed before the next item is looked at. -/
def writeItems (policies : TierPolicies) (userId : String) :
    List PatchItem → StoredPrefs → StoredPrefs × Except PrefError Unit
  | [], prefs => (prefs, .ok ())
  | item :: items, prefs =>
    match validatePatchItem policies item with
    | .error e => (prefs, .error e)
    | .ok () => writeItems policies userId items (storePref prefs userId item)

def patchPreferences (policies : TierPolicies) (settings : String → Option UserSettings)
    (userId : String) (patch : List PatchItem) (prefs : StoredPrefs) :
    StoredPrefs × Except PrefError PreferencesResponse :=
  match writeItems policies userId (mergedItems patch) prefs with
  | (prefs', .error e) => (prefs', .error e)
  | (prefs', .ok ()) => (prefs', getEffectivePreferences policies (settings userId) (prefs' userId))

/-- The last item of the list with a key. -/
def lastItem (items : List PatchItem) (key : NotificationType × ChannelId) : Option PatchItem :=
  (items.filter (·.key = key)).getLast?

/-- The preferences with the value of the last item under each key that is mentioned, and nothing else
changed. -/
def overwritten (userId : String) (items : List PatchItem) (prefs : StoredPrefs) : StoredPrefs :=
  fun u key =>
    if u = userId then ((lastItem items key).map PatchItem.enabled).or (prefs u key) else prefs u key

/-- A patch that raises leaves the stored preferences as they were, one that returns has stored all of
it. -/
def PatchAtomic (policies : TierPolicies) (settings : String → Option UserSettings) (userId : String)
    (patch : List PatchItem) (prefs : StoredPrefs) : Prop :=
  let out := patchPreferences policies settings userId patch prefs
  ((∃ e, out.2 = .error e) ∧ out.1 = prefs) ∨
    ((∃ response, out.2 = .ok response) ∧ out.1 = overwritten userId patch prefs)

/-- The items that the loop writes: those before the first one that is refused. -/
def writtenItems (policies : TierPolicies) (patch : List PatchItem) : List PatchItem :=
  (mergedItems patch).takeWhile fun item => validatePatchItem policies item = .ok ()

/-- Each type belongs to a tier that has a policy. -/
def Complete (policies : TierPolicies) : Prop := ∀ ntype, (policies (typeToTier ntype)).isSome

/-! ### Items and their keys -/

theorem lastItem_key {items : List PatchItem} {key : NotificationType × ChannelId} {item : PatchItem}
    (h : lastItem items key = some item) : item ∈ items ∧ item.key = key := by
  simpa using List.mem_filter.mp (List.mem_of_getLast? h)

theorem lastItem_eq_none {items : List PatchItem} {key : NotificationType × ChannelId} :
    lastItem items key = none ↔ ∀ item ∈ items, item.key ≠ key := by
  simp [lastItem, List.getLast?_eq_none_iff, List.filter_eq_nil_iff]

theorem lastItem_append_singleton (items : List PatchItem) (item : PatchItem)
    (key : NotificationType × ChannelId) :
    lastItem (items ++ [item]) key = if item.key = key then some item else lastItem items key := by
  by_cases h : item.key = key <;> simp [lastItem, h]

theorem mem_mergedItems {patch : List PatchItem} {item : PatchItem} :
    item ∈ mergedItems patch ↔ lastItem patch item.key = some item := by
  simp only [mergedItems, Dict.mem_values_iff, Dict.get?_accumulate_last]
  constructor
  · rintro ⟨key, h⟩
    obtain ⟨-, rfl⟩ := lastItem_key h
    exact h
  · intro h
    exact ⟨item.key, h⟩

theorem mergedItems_keys (patch : List PatchItem) : ((mergedItems patch).map PatchItem.key).Nodup := by
  have hkeys : (mergedItems patch).map PatchItem.key
      = (Dict.accumulate PatchItem.key (fun _ item => item) patch).keys := by
    rw [mergedItems, Dict.values, Dict.keys, List.map_map]
    refine List.map_congr_left fun entry hentry => ?_
    have hlast := (Dict.get?_eq_some_iff _ entry.1 entry.2).mpr hentry
    rw [Dict.get?_accumulate_last] at hlast
    exact (lastItem_key hlast).2
  rw [hkeys]
  exact Dict.nodup _

theorem lastItem_of_mem {items : List PatchItem} (hkeys : (items.map PatchItem.key).Nodup)
    {item : PatchItem} (h : item ∈ items) : lastItem items item.key = some item := by
  cases hlast : lastItem items item.key with
  | none => exact absurd rfl (lastItem_eq_none.mp hlast item h)
  | some other =>
    obtain ⟨hmem, hkey⟩ := lastItem_key hlast
    rw [List.inj_on_of_nodup_map hkeys hmem h hkey]

theorem lastItem_mergedItems (patch : List PatchItem) (key : NotificationType × ChannelId) :
    lastItem (mergedItems patch) key = lastItem patch key := by
  cases hlast : lastItem patch key with
  | none =>
    rw [lastItem_eq_none] at hlast ⊢
    intro item h
    exact hlast item (lastItem_key (mem_mergedItems.mp h)).1
  | some item =>
    obtain ⟨-, rfl⟩ := lastItem_key hlast
    exact lastItem_of_mem (mergedItems_keys patch) (mem_mergedItems.mpr hlast)

theorem overwritten_mergedItems (userId : String) (patch : List PatchItem) (prefs : StoredPrefs) :
    overwritten userId (mergedItems patch) prefs = overwritten userId patch prefs := by
  funext u key
  simp only [overwritten, lastItem_mergedItems]

theorem overwritten_eq_self_iff {userId : String} {items : List PatchItem} {prefs : StoredPrefs}
    (hkeys : (items.map PatchItem.key).Nodup) :
    overwritten userId items prefs = prefs
      ↔ ∀ item ∈ items, prefs userId item.key = some item.enabled := by
  constructor
  · intro h item hitem
    rw [← h]
    simp [overwritten, lastItem_of_mem hkeys hitem]
  · intro h
    funext u key
    by_cases hu : u = userId
    · subst hu
      cases hlast : lastItem items key with
      | none => simp [overwritten, hlast]
      | some item =>
        obtain ⟨hmem, rfl⟩ := lastItem_key hlast
        simp [overwritten, hlast, h item hmem]
    · simp [overwritten, hu]

/-! ### The loop -/

theorem storePref_overwritten (userId : String) (items : List PatchItem) (item : PatchItem)
    (prefs : StoredPrefs) :
    storePref (overwritten userId items prefs) userId item
      = overwritten userId (items ++ [item]) prefs := by
  funext u key
  by_cases hu : u = userId
  · subst hu
    by_cases hkey : key = item.key
    · simp [storePref, overwritten, lastItem_append_singleton, hkey]
    · simp [storePref, overwritten, lastItem_append_singleton, hkey, Ne.symm hkey]
  · simp [storePref, overwritten, hu]

theorem foldl_storePref (userId : String) (items : List PatchItem) (prefs : StoredPrefs) :
    items.foldl (fun prefs item => storePref prefs userId item) prefs
      = overwritten userId items prefs := by
  induction items using List.reverseRecOn with
  | nil => funext u key; simp [overwritten, lastItem]
  | append_singleton items item ih => rw [List.foldl_append, ih, List.foldl_cons, storePref_overwritten]; rfl

theorem writeItems_spec (policies : TierPolicies) (userId : String) (items : List PatchItem) :
    ∀ prefs, (writeItems policies userId items prefs).1
        = (items.takeWhile fun item => validatePatchItem policies item = .ok ()).foldl
            (fun prefs item => storePref prefs userId item) prefs ∧
      ((writeItems policies userId items prefs).2 = .ok ()
        ↔ ∀ item ∈ items, validatePatchItem policies item = .ok ()) := by
  induction items with
  | nil => intro prefs; simp [writeItems]
  | cons item items ih =>
    intro prefs
    cases hval : validatePatchItem policies item with
    | error e => simp [writeItems, hval]
    | ok u => simpa [writeItems, hval] using ih (storePref prefs userId item)

theorem mapM_ok_iff {ε α β : Type} (f : α → Except ε β) (xs : List α) :
    (∃ ys, xs.mapM f = .ok ys) ↔ ∀ x ∈ xs, ∃ y, f x = .ok y := by
  induction xs with
  | nil => simp [pure, Except.pure]
  | cons x xs ih =>
    rw [List.forall_mem_cons, ← ih, List.mapM_cons]
    cases f x with
    | error e => simp [bind, Except.bind]
    | ok y =>
      cases xs.mapM f with
      | error e => simp [bind, Except.bind]
      | ok ys => simp [bind, Except.bind, pure, Except.pure]

theorem typePrefsRow_ok_iff (policies : TierPolicies) (sparse : SparsePrefs) (ntype : NotificationType) :
    (∃ row, typePrefsRow policies sparse ntype = .ok row) ↔ (policies (typeToTier ntype)).isSome := by
  cases hpolicy : policies (typeToTier ntype) with
  | none => simp [typePrefsRow, tierPolicyOf, hpolicy, bind, Except.bind]
  | some policy => simp [typePrefsRow, tierPolicyOf, hpolicy, bind, Except.bind, pure, Except.pure]

theorem getEffectivePreferences_ok_iff (policies : TierPolicies) (settings : Option UserSettings)
    (sparse : SparsePrefs) :
    (∃ response, getEffectivePreferences policies settings sparse = .ok response)
      ↔ Complete policies := by
  have hrows : (∃ response, getEffectivePreferences policies settings sparse = .ok response)
      ↔ ∃ types, notificationTypes.mapM (typePrefsRow policies sparse) = .ok types := by
    unfold getEffectivePreferences
    cases notificationTypes.mapM (typePrefsRow policies sparse) with
    | error e => simp [bind, Except.bind]
    | ok types => simp [bind, Except.bind, pure, Except.pure]
  rw [hrows, mapM_ok_iff]
  simp only [typePrefsRow_ok_iff]
  constructor
  · intro h ntype
    exact h ntype (by cases ntype <;> simp [notificationTypes])
  · intro h ntype _
    exact h ntype

theorem patchPreferences_fst (policies : TierPolicies) (settings : String → Option UserSettings)
    (userId : String) (patch : List PatchItem) (prefs : StoredPrefs) :
    (patchPreferences policies settings userId patch prefs).1
      = overwritten userId (writtenItems policies patch) prefs := by
  have hwritten := (writeItems_spec policies userId (mergedItems patch) prefs).1
  rw [writtenItems, ← foldl_storePref, ← hwritten, patchPreferences]
  split <;> rename_i heq <;> rw [heq]

theorem patchPreferences_ok_iff (policies : TierPolicies) (settings : String → Option UserSettings)
    (userId : String) (patch : List PatchItem) (prefs : StoredPrefs) :
    (∃ response, (patchPreferences policies settings userId patch prefs).2 = .ok response)
      ↔ (∀ item ∈ mergedItems patch, validatePatchItem policies item = .ok ())
        ∧ Complete policies := by
  rw [← (writeItems_spec policies userId (mergedItems patch) prefs).2, patchPreferences]
  split
  · rename_i prefs' e heq
    simp [heq]
  · rename_i prefs' heq
    simp [heq, getEffectivePreferences_ok_iff]

/-- A patch is all or nothing exactly when none of its items is refused, or the items written before the
first refused one say what is stored already. -/
theorem patchPreferences_atomic_iff (policies : TierPolicies)
    (settings : String → Option UserSettings) (userId : String) (patch : List PatchItem)
    (prefs : StoredPrefs) :
    PatchAtomic policies settings userId patch prefs ↔
      ((∀ item ∈ mergedItems patch, validatePatchItem policies item = .ok ()) ∧ Complete policies) ∨
        ∀ item ∈ writtenItems policies patch, prefs userId item.key = some item.enabled := by
  have hkeys : ((writtenItems policies patch).map PatchItem.key).Nodup :=
    ((List.takeWhile_sublist _).map _).nodup (mergedItems_keys patch)
  have hok := patchPreferences_ok_iff policies settings userId patch prefs
  simp only [PatchAtomic, patchPreferences_fst]
  by_cases hall : (∀ item ∈ mergedItems patch, validatePatchItem policies item = .ok ()) ∧
      Complete policies
  · -- nothing is refused: the loop writes every merged item
    have hwritten : writtenItems policies patch = mergedItems patch := by
      simpa [writtenItems, List.takeWhile_eq_self_iff] using hall.1
    constructor
    · intro _
      exact .inl hall
    · intro _
      exact .inr ⟨hok.mpr hall, by rw [hwritten, overwritten_mergedItems]⟩
  · have herror : ∃ e, (patchPreferences policies settings userId patch prefs).2 = .error e := by
      cases hres : (patchPreferences policies settings userId patch prefs).2 with
      | error e => exact ⟨e, rfl⟩
      | ok response => exact absurd (hok.mp ⟨response, hres⟩) hall
    simp only [hall, hok, herror, overwritten_eq_self_iff hkeys, true_and, false_and, or_false,
      false_or]

/-- The second item is refused, the first one stays stored. -/
theorem patchPreferences_keeps_first :
    ¬ PatchAtomic seedTierPolicies (fun _ => none) "alice"
      [⟨.signalReceived, .ntfy, false⟩, ⟨.consolidationDone, .ntfy, true⟩] (fun _ _ => none) := by
  intro h
  have hwritten : writtenItems seedTierPolicies
      [⟨.signalReceived, .ntfy, false⟩, ⟨.consolidationDone, .ntfy, true⟩]
      = [⟨.signalReceived, .ntfy, false⟩] := by decide
  rcases h with ⟨-, h⟩ | ⟨hok, -⟩
  · rw [patchPreferences_fst, hwritten] at h
    have hrow := congrFun (congrFun h "alice") (.signalReceived, .ntfy)
    simp [overwritten, lastItem, PatchItem.key] at hrow
  · rw [patchPreferences_ok_iff] at hok
    have hrefused := hok.1 ⟨.consolidationDone, .ntfy, true⟩ (by decide)
    revert hrefused
    decide

/-! ## The policies -/

structure TierPolicyPatch where
  bypassQuietHours : Option Bool
  defaultChannels : Option (List ChannelId)

/-- The loop of `_validate_default_channels`. -/
def checkDistinct : List ChannelId → List ChannelId → Except PrefError Unit
  | _, [] => .ok ()
  | seen, ch :: chs =>
    if seen.contains ch then .error (.httpException 422 "tier_policy_invalid_channels")
    else checkDistinct (ch :: seen) chs

def validateDefaultChannels (channels : List ChannelId) : Except PrefError Unit :=
  if channels = [] then .error (.httpException 422 "tier_policy_invalid_channels")
  else checkDistinct [] channels

/-- The row is validated as a whole before it is stored. -/
def patchTierPolicy (policies : TierPolicies) (tier : NotificationTier) (patch : TierPolicyPatch) :
    Except PrefError TierPolicies := do
  let current ← tierPolicyOf policies tier
  let channels ← match patch.defaultChannels with
    | some channels => do
      validateDefaultChannels channels
      pure channels
    | none => pure current.defaultChannels
  return Function.update policies tier (some {
    tier
    bypassQuietHours := patch.bypassQuietHours.getD current.bypassQuietHours
    defaultChannels := channels })

/-- The policies after a list of patches, each of which is made or refused. -/
def policiesAfter (patches : List (NotificationTier × TierPolicyPatch)) : TierPolicies :=
  patches.foldl (fun policies p => (patchTierPolicy policies p.1 p.2).toOption.getD policies)
    seedTierPolicies

/-- No policy lists a channel twice. -/
def DistinctChannels (policies : TierPolicies) : Prop :=
  ∀ tier policy, policies tier = some policy → policy.defaultChannels.Nodup

theorem seedTierPolicies_distinct : DistinctChannels seedTierPolicies := by
  intro tier policy h
  obtain rfl : _ = policy := Option.some.inj h
  cases tier <;> decide

theorem checkDistinct_nodup {channels : List ChannelId} :
    ∀ {seen}, checkDistinct seen channels = .ok () → seen.Nodup → (seen ++ channels).Nodup := by
  induction channels with
  | nil => intro seen _ hseen; simpa using hseen
  | cons ch chs ih =>
    intro seen h hseen
    rw [checkDistinct] at h
    split at h
    · cases h
    · rename_i hnew
      have hrest := ih h (List.nodup_cons.mpr ⟨by simpa using hnew, hseen⟩)
      exact List.nodup_middle.mpr hrest

theorem validateDefaultChannels_nodup {channels : List ChannelId}
    (h : validateDefaultChannels channels = .ok ()) : channels.Nodup := by
  rw [validateDefaultChannels] at h
  split at h
  · cases h
  · exact checkDistinct_nodup h List.nodup_nil

theorem patchTierPolicy_distinct {policies policies' : TierPolicies} {tier : NotificationTier}
    {patch : TierPolicyPatch} (h : patchTierPolicy policies tier patch = .ok policies')
    (hdistinct : DistinctChannels policies) : DistinctChannels policies' := by
  obtain ⟨channels, hnodup, hupdate⟩ : ∃ channels : List ChannelId, channels.Nodup ∧
      ∃ bypass, policies' = Function.update policies tier (some ⟨tier, bypass, channels⟩) := by
    cases hcurrent : policies tier with
    | none => simp [patchTierPolicy, tierPolicyOf, hcurrent, bind, Except.bind] at h
    | some current =>
      cases hchannels : patch.defaultChannels with
      | none =>
        refine ⟨current.defaultChannels, hdistinct tier current hcurrent,
          patch.bypassQuietHours.getD current.bypassQuietHours, ?_⟩
        simpa [patchTierPolicy, tierPolicyOf, hcurrent, hchannels, bind, Except.bind, pure, Except.pure]
          using h.symm
      | some channels =>
        cases hvalid : validateDefaultChannels channels with
        | error e =>
          simp [patchTierPolicy, tierPolicyOf, hcurrent, hchannels, hvalid, bind, Except.bind] at h
        | ok u =>
          refine ⟨channels, validateDefaultChannels_nodup hvalid,
            patch.bypassQuietHours.getD current.bypassQuietHours, ?_⟩
          simpa [patchTierPolicy, tierPolicyOf, hcurrent, hchannels, hvalid, bind, Except.bind, pure,
            Except.pure] using h.symm
  obtain ⟨bypass, rfl⟩ := hupdate
  intro tier' policy hpolicy
  by_cases htier : tier' = tier
  · subst htier
    rw [Function.update_self] at hpolicy
    obtain rfl := Option.some.inj hpolicy
    exact hnodup
  · rw [Function.update_of_ne htier] at hpolicy
    exact hdistinct tier' policy hpolicy

/-- No run of policy patches makes a tier list a channel twice. -/
theorem policiesAfter_distinct (patches : List (NotificationTier × TierPolicyPatch)) :
    DistinctChannels (policiesAfter patches) := by
  unfold policiesAfter
  induction patches using List.reverseRecOn with
  | nil => exact seedTierPolicies_distinct
  | append_singleton patches p ih =>
    rw [List.foldl_append, List.foldl_cons, List.foldl_nil]
    cases hpatch : patchTierPolicy _ p.1 p.2 with
    | error e => exact ih
    | ok policies' => exact patchTierPolicy_distinct hpatch ih

end Lumogis
