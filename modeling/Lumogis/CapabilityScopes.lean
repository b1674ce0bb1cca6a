import Lumogis.CapabilityTools
import Lumogis.Permissions
import Mathlib.Data.List.Dedup

/-!
# Lumogis.CapabilityScopes

The scopes that a capability requires: `malformed_required_scopes` at registration, `grant_scopes` and
the scope gate of `execute_capability_http`. Validation and granting look at a scope without the blanks
around it, the gate looks at the scope as the manifest declares it. A user can grant what an accepted
manifest requires exactly when it declares no scope with blanks around it (`accepted_grantable_iff`).
-/

namespace Lumogis

open Prog Labelled Permissions

/-! ## The gate -/

inductive ScopeGate where
  | passes
  | denied (connector : String) (missingScopes : List String) (hint : String)

/-- The scope gate of `execute_capability_http`. -/
def scopeGate (userId connector : String) (requiredScopes : List String) : PermM ScopeGate :=
  if requiredScopes = [] then pure .passes
  else do
    let granted ← getGrantedScopes userId connector
    let missing := (requiredScopes.dedup.filter (· ∉ granted)).insertionSort (· ≤ ·)
    if missing = [] then pure .passes
    else pure (.denied connector missing ("grant via PUT /api/v1/me/permissions/" ++ connector))

/-- A call of the route's tool gets through the scope gate. -/
def LetsThrough (s : PermStore) (userId : String) (route : OopCapabilityToolRoute) : Prop :=
  ((scopeGate userId route.connector route.requiredScopes).exec s).map Prod.fst = some (.ok .passes)

structure GrantCall where
  userId : String
  connector : String
  scopes : List String

/-- A sequence of calls of `grant_scopes`. -/
def grantAll (calls : List GrantCall) (s : PermStore) : PermStore :=
  calls.foldl (fun s call => (grantScopes call.userId call.connector call.scopes).after s) s

/-- After some grants, a call of each of the manifest's tools gets through. -/
def Grantable (s : PermStore) (userId : String) (svc : RegisteredService) : Prop :=
  ∃ calls, ∀ ct ∈ svc.manifest.tools, LetsThrough (grantAll calls s) userId (toolRoute svc ct)

/-! ## What has been stored -/

/-- The calls that change or cache permissions. -/
inductive PermCall where
  | check (connector actionType : String) (isWrite : Bool) (userId : String)
  | granted (userId connector : String)
  | setMode (userId connector mode : String)
  | grant (userId connector : String) (scopes : List String)
  | delete (userId connector : String)
  | clearUser (userId : String)

def PermCall.prog : PermCall → PermM Unit
  | .check connector actionType isWrite userId => do
    let _ ← checkPermission connector actionType isWrite userId
  | .granted userId connector => do
    let _ ← getGrantedScopes userId connector
  | .setMode userId connector mode => setConnectorMode userId connector mode
  | .grant userId connector scopes => grantScopes userId connector scopes
  | .delete userId connector => deleteUserPermission userId connector
  | .clearUser userId => clearCacheForUser userId

/-- A call, in which statements may fail. -/
def permCallStep (l : PermCall × List Fate) (s : PermStore) : Option PermStore :=
  (l.1.prog.execFates l.2 s).map Prod.snd

/-- Nothing is stored or cached yet. -/
def noPermissions : PermStore := { connectorPermissions := [], actionLog := [], permCache := ∅ }

def Stripped (scopes : List String) : Prop := ∀ scope ∈ scopes, strip scope = scope

/-- No blanks around any scope that is stored or cached. -/
structure ScopesStripped (s : PermStore) : Prop where
  rows : ∀ row ∈ s.connectorPermissions, Stripped row.scopes
  cache : ∀ key value, s.cached key = some value → Stripped value.scopes

/-! ## Scopes -/

/-- One scope of `_normalise_scopes`. -/
def addScope (out : List String) (raw : String) : Except PermErr (List String) :=
  if Permissions.isScope (strip raw) = false then .error (.invalidScope raw)
  else if strip raw ∈ out then .ok out else .ok (out ++ [strip raw])

theorem normaliseScopes_eq (scopes : List String) : normaliseScopes scopes = scopes.foldlM addScope [] := rfl

theorem addScope_ok {out out' : List String} {raw : String} (h : addScope out raw = .ok out') :
    (∀ scope ∈ out, scope ∈ out') ∧ strip raw ∈ out' ∧ ∀ scope ∈ out', scope ∈ out ∨ scope = strip raw := by
  rw [addScope] at h
  split at h
  · cases h
  · split at h
    · rename_i hmem
      cases h
      exact ⟨fun scope hs => hs, hmem, fun scope hs => Or.inl hs⟩
    · cases h
      refine ⟨fun scope hs => List.mem_append_left _ hs, by simp, ?_⟩
      intro scope hs
      simpa using hs

theorem foldlM_addScope {scopes out out' : List String} (h : scopes.foldlM addScope out = .ok out') :
    (Stripped out → Stripped out') ∧ (∀ scope ∈ out, scope ∈ out') ∧ ∀ raw ∈ scopes, strip raw ∈ out' := by
  induction scopes generalizing out with
  | nil =>
    cases h
    exact ⟨id, fun scope hs => hs, fun raw hraw => by cases hraw⟩
  | cons raw scopes ih =>
    rw [List.foldlM_cons] at h
    cases hadd : addScope out raw with
    | error e =>
      rw [hadd] at h
      cases h
    | ok mid =>
      rw [hadd] at h
      obtain ⟨hkeep, hraw, hfrom⟩ := addScope_ok hadd
      obtain ⟨hstripped, hmem, hrest⟩ := ih h
      refine ⟨?_, fun scope hs => hmem scope (hkeep scope hs), ?_⟩
      · intro hout
        refine hstripped ?_
        intro scope hs
        rcases hfrom scope hs with hs | rfl
        · exact hout scope hs
        · exact strip_strip raw
      · intro x hx
        rcases List.mem_cons.mp hx with rfl | hx
        · exact hmem _ hraw
        · exact hrest x hx

theorem normaliseScopes_spec {scopes out : List String} (h : normaliseScopes scopes = .ok out) :
    Stripped out ∧ ∀ raw ∈ scopes, strip raw ∈ out := by
  obtain ⟨hstripped, -, hmem⟩ := foldlM_addScope ((normaliseScopes_eq scopes).symm.trans h)
  refine ⟨hstripped ?_, hmem⟩
  intro scope hs
  cases hs

theorem normaliseScopes_ok {scopes : List String} (h : ∀ raw ∈ scopes, Permissions.isScope (strip raw) = true) :
    ∃ out, normaliseScopes scopes = .ok out := by
  rw [normaliseScopes_eq]
  generalize ([] : List String) = out
  induction scopes generalizing out with
  | nil => exact ⟨out, rfl⟩
  | cons raw scopes ih =>
    have hraw := h raw List.mem_cons_self
    obtain ⟨mid, hmid⟩ : ∃ mid, addScope out raw = .ok mid := by
      rw [addScope, hraw, if_neg (by decide)]
      split
      · exact ⟨_, rfl⟩
      · exact ⟨_, rfl⟩
    obtain ⟨out', hout'⟩ := ih (fun x hx => h x (List.mem_cons_of_mem raw hx)) mid
    refine ⟨out', ?_⟩
    rw [List.foldlM_cons, hmid]
    exact hout'

theorem isScopeWord_of_chars {w : List Char} (hne : w.isEmpty = false) (h : w.all isScopeChar = true) :
    isScopeWord w = true := by
  have hchar : ∀ c, isScopeChar c = true →
      (('a' ≤ c && c ≤ 'z') || ('0' ≤ c && c ≤ '9') || c == '_') = true := by
    intro c hc
    have hmem : c ∈ "abcdefghijklmnopqrstuvwxyz0123456789".toList ++ ['_'] := by
      rw [isScopeChar, isIdStart, Bool.or_eq_true, List.contains_iff_mem, beq_iff_eq] at hc
      rw [List.mem_append, List.mem_singleton]
      exact hc
    have hall : ("abcdefghijklmnopqrstuvwxyz0123456789".toList ++ ['_']).all (fun c =>
        ('a' ≤ c && c ≤ 'z') || ('0' ≤ c && c ≤ '9') || c == '_') = true := by decide
    exact List.all_eq_true.mp hall c hmem
  rw [isScopeWord, hne, Bool.not_false, Bool.true_and, List.all_eq_true]
  intro c hc
  exact hchar c (List.all_eq_true.mp h c hc)

theorem isScope_of_validated {s : String} (h : Lumogis.isScope s = true) : Permissions.isScope s = true := by
  rw [Lumogis.isScope] at h
  have hcolon : isScopeChar ':' = false := by decide
  have hnot : ∀ w : List Char, w.all isScopeChar = true → ':' ∉ w := by
    intro w hw hmem
    have htrue := List.all_eq_true.mp hw ':' hmem
    rw [hcolon] at htrue
    cases htrue
  have hresource : (s.toList.takeWhile isScopeChar).all isScopeChar = true := by
    rw [List.all_eq_true]
    intro c hc
    exact List.mem_takeWhile_imp hc
  split at h
  · rename_i action hdrop
    simp only [Bool.and_eq_true, Bool.not_eq_true'] at h
    obtain ⟨⟨hne, hane⟩, haction⟩ := h
    have hsplit : s.toList.splitOn ':' = [s.toList.takeWhile isScopeChar, action] := by
      have hlist := List.takeWhile_append_dropWhile (p := isScopeChar) (l := s.toList)
      rw [hdrop] at hlist
      calc s.toList.splitOn ':'
          = (s.toList.takeWhile isScopeChar ++ ':' :: action).splitOn ':' := by rw [hlist]
        _ = s.toList.takeWhile isScopeChar :: action.splitOn ':' :=
          List.splitOn_append_cons_self_of_not_mem (hnot _ hresource) action
        _ = [s.toList.takeWhile isScopeChar, action] := by rw [List.splitOn_eq_singleton (hnot _ haction)]
    rw [Permissions.isScope, hsplit]
    simp only [isScopeWord_of_chars hne hresource, isScopeWord_of_chars hane haction, Bool.and_self]
  · cases h

/-! ## Every call keeps them stripped -/

section Stored

variable {s : PermStore}

theorem noPermissions_stripped : ScopesStripped noPermissions where
  rows row hrow := by cases hrow
  cache key value h := by cases h

theorem ScopesStripped.perm (h : ScopesStripped s) (key : PermKey) : Stripped (s.perm key).scopes := by
  rw [PermStore.perm, permOf]
  split
  · rename_i row hfind
    exact h.rows row (List.mem_of_find?_eq_some hfind)
  · intro scope hs
    cases hs

theorem ScopesStripped.fill (h : ScopesStripped s) {key : PermKey} {value : Perm} (hvalue : Stripped value.scopes) :
    ScopesStripped (s.fill key value) where
  rows := h.rows
  cache key' value' h' := by
    by_cases hkey : key' = key
    · subst hkey
      rw [PermStore.cached, PermStore.fill, AList.lookup_insert] at h'
      cases h'
      exact hvalue
    · rw [PermStore.cached, PermStore.fill, AList.lookup_insert_ne hkey] at h'
      exact h.cache key' value' h'

theorem ScopesStripped.drop (h : ScopesStripped s) (key : PermKey) : ScopesStripped (s.drop key) where
  rows := h.rows
  cache key' value h' := by
    by_cases hkey : key' = key
    · subst hkey
      rw [PermStore.cached, PermStore.drop, AList.lookup_erase] at h'
      cases h'
    · rw [PermStore.cached, PermStore.drop, AList.lookup_erase_ne hkey] at h'
      exact h.cache key' value h'

theorem ScopesStripped.upsert (h : ScopesStripped s) {row : PermRow} {f : PermRow → PermRow}
    (hrow : Stripped row.scopes) (hf : ∀ r, Stripped r.scopes → Stripped (f r).scopes) :
    ScopesStripped (s.setRows (upsertPerm row f s.connectorPermissions)) where
  rows r hr := by
    rw [PermStore.setRows, upsertPerm] at hr
    split at hr
    · obtain ⟨r', hr', rfl⟩ := List.mem_map.mp hr
      split
      · exact hf r' (h.rows r' hr')
      · exact h.rows r' hr'
    · rcases List.mem_append.mp hr with hr | hr
      · exact h.rows r hr
      · rw [List.mem_singleton.mp hr]
        exact hrow
  cache := h.cache

theorem ScopesStripped.delete (h : ScopesStripped s) (p : PermRow → Bool) :
    ScopesStripped (s.setRows (Table.deleteWhere p s.connectorPermissions)) where
  rows r hr := h.rows r (Table.mem_of_mem_deleteWhere hr)
  cache := h.cache

theorem ScopesStripped.log (h : ScopesStripped s) (row : ActionLogRow) : ScopesStripped (s.log row) where
  rows := h.rows
  cache := h.cache

/-- Whatever fails, the program keeps the stored scopes stripped. -/
def KeepsStripped {α : Type} (p : PermM α) : Prop :=
  ∀ s, ScopesStripped s → Post (fun _ t => ScopesStripped t) p s

theorem keeps_ret {α : Type} (a : α) : KeepsStripped (.ret a : PermM α) := fun _ h => h

theorem keeps_raise {α : Type} (e : PermErr) : KeepsStripped (.raise e : PermM α) := fun _ h => h

theorem keeps_bind {α β : Type} {p : PermM α} {f : α → PermM β} (hp : KeepsStripped p)
    (hf : ∀ a, KeepsStripped (f a)) : KeepsStripped (p >>= f) := by
  intro s h
  rw [post_bind]
  refine (hp s h).mono ?_
  intro r t ht
  cases r with
  | ok a => exact hf a t ht
  | error e => exact ht

theorem keeps_act {α : Type} {f : PermStore → α × PermStore}
    (hf : ∀ s, ScopesStripped s → ScopesStripped (f s).2) : KeepsStripped (act .database f : PermM α) := by
  intro s h
  rw [post_act]
  exact ⟨hf s h, h, hf s h⟩

theorem keeps_requireUser (name userId : String) : KeepsStripped (requireUser name userId) := by
  rw [requireUser]
  split
  · exact keeps_raise _
  · exact keeps_ret ()

theorem keeps_loadPerm (userId connector : String) : KeepsStripped (loadPerm userId connector) := by
  intro s h
  rw [loadPerm, post_bind, cacheGet, post_query]
  refine ⟨?_, h⟩
  simp only [seqPost]
  split
  · exact h
  · simp only [post_bind, selectPerm, post_query, seqPost, cachePut, post_act, pure_eq, post_ret]
    exact ⟨⟨h.fill (h.perm _), h, h.fill (h.perm _)⟩, h⟩

theorem keeps_logAction (row : ActionLogRow) : KeepsStripped (logAction row) := by
  rw [logAction]
  refine keeps_bind (keeps_requireUser _ _) ?_
  intro _ s h
  rw [post_bind, post_attempt, insertActionLog, post_act]
  exact ⟨h.log row, h, h.log row⟩

theorem keeps_check (connector actionType : String) (isWrite : Bool) (userId : String) :
    KeepsStripped (checkPermission connector actionType isWrite userId) := by
  rw [checkPermission, getConnectorMode]
  refine keeps_bind (keeps_requireUser _ _) fun _ => keeps_bind ?_ ?_
  · exact keeps_bind (keeps_requireUser _ _) fun _ => keeps_bind (keeps_loadPerm _ _) fun _ => keeps_ret _
  · intro mode
    exact keeps_bind (keeps_logAction _) fun _ => keeps_ret _

theorem keeps_invalidate (userId connector : String) : KeepsStripped (invalidateCache userId connector) :=
  keeps_act fun _ h => h.drop _

theorem keeps_setMode (userId connector mode : String) : KeepsStripped (setConnectorMode userId connector mode) := by
  rw [setConnectorMode]
  refine keeps_bind (keeps_requireUser _ _) ?_
  intro _
  split
  · exact keeps_raise _
  · refine keeps_bind (keeps_act ?_) fun _ => keeps_invalidate userId connector
    intro s h
    refine h.upsert ?_ fun r hr => hr
    intro scope hs
    cases hs

theorem keeps_grant (userId connector : String) (scopes : List String) :
    KeepsStripped (grantScopes userId connector scopes) := by
  rw [grantScopes]
  refine keeps_bind (keeps_requireUser _ _) ?_
  intro _
  split
  · exact keeps_raise _
  · rename_i clean hclean
    have hstripped := (normaliseScopes_spec hclean).1
    refine keeps_bind (keeps_act ?_) fun _ => keeps_invalidate userId connector
    intro s h
    exact h.upsert hstripped fun _ _ => hstripped

theorem keeps_delete (userId connector : String) : KeepsStripped (deleteUserPermission userId connector) := by
  rw [deleteUserPermission]
  refine keeps_bind (keeps_requireUser _ _) fun _ => keeps_bind (keeps_act ?_) fun _ => keeps_invalidate _ _
  intro s h
  exact h.delete _

theorem keeps_clearUser (userId : String) : KeepsStripped (clearCacheForUser userId) := by
  rw [clearCacheForUser]
  refine keeps_bind (keeps_act fun _ h => h) ?_
  intro keys
  induction keys.filter fun key => key.1 == userId with
  | nil => exact keeps_ret ()
  | cons key keys ih => exact keeps_bind (keeps_act fun _ h => h.drop key) fun _ => ih

theorem PermCall.keeps (l : PermCall) : KeepsStripped l.prog := by
  cases l with
  | check connector actionType isWrite userId => exact keeps_bind (keeps_check _ _ _ _) fun _ => keeps_ret ()
  | granted userId connector =>
    refine keeps_bind ?_ fun _ => keeps_ret ()
    exact keeps_bind (keeps_requireUser _ _) fun _ => keeps_bind (keeps_loadPerm _ _) fun _ => keeps_ret _
  | setMode userId connector mode => exact keeps_setMode userId connector mode
  | grant userId connector scopes => exact keeps_grant userId connector scopes
  | delete userId connector => exact keeps_delete userId connector
  | clearUser userId => exact keeps_clearUser userId

theorem stored_stripped (h : Reaches permCallStep (fun _ _ => True) noPermissions s) : ScopesStripped s := by
  refine h.invariant noPermissions_stripped ?_
  intro l s t hs _ hstep
  obtain ⟨⟨r, t'⟩, hexec, rfl⟩ := Option.map_eq_some_iff.mp hstep
  exact (l.1.keeps s hs).faulty (faulty_iff.mpr ⟨l.2, hexec⟩)

theorem grantAll_stripped (h : ScopesStripped s) (calls : List GrantCall) : ScopesStripped (grantAll calls s) := by
  induction calls generalizing s with
  | nil => exact h
  | cons call calls ih =>
    refine ih ?_
    simp only [Prog.after]
    cases hexec : (grantScopes call.userId call.connector call.scopes).exec s with
    | none => exact h
    | some x =>
      obtain ⟨r, t⟩ := x
      exact (keeps_grant _ _ _ s h).faulty (Faulty.of_exec hexec)

end Stored

/-! ## Grants and the gate -/

section Gate

variable {s : PermStore} {userId connector : String}

/-- What `_load_perm` returns. -/
def PermStore.loaded (s : PermStore) (key : PermKey) : Perm := (s.cached key).getD (s.perm key)

theorem ScopesStripped.loaded (h : ScopesStripped s) (key : PermKey) : Stripped (s.loaded key).scopes := by
  rw [PermStore.loaded]
  cases hcached : s.cached key with
  | none => exact h.perm key
  | some value => exact h.cache key value hcached

theorem requireUser_of_ne (name : String) (hu : userId ≠ "") : requireUser name userId = .ret () := by
  rw [requireUser, if_neg hu]
  rfl

theorem getGrantedScopes_wp (s : PermStore) (connector : String) (hu : userId ≠ "") :
    wp (fun r _ => r = .ok (s.loaded (userId, connector)).scopes) (getGrantedScopes userId connector) s := by
  rw [getGrantedScopes, requireUser_of_ne _ hu, wp_bind, wp_ret]
  simp only [seqPost]
  rw [wp_bind, loadPerm, wp_bind, cacheGet, wp_query]
  simp only [seqPost, PermStore.loaded]
  split
  · rename_i hcached
    rw [hcached]
    rfl
  · rename_i hcached
    rw [hcached]
    simp only [wp_bind, selectPerm, wp_query, seqPost, cachePut, wp_act, pure_eq, wp_ret]
    rfl

theorem missing_eq_nil_iff {required granted : List String} :
    (required.dedup.filter (· ∉ granted)).insertionSort (· ≤ ·) = [] ↔ ∀ scope ∈ required, scope ∈ granted := by
  rw [← List.length_eq_zero_iff, List.length_insertionSort, List.length_eq_zero_iff, List.filter_eq_nil_iff]
  simp

theorem letsThrough_iff {route : OopCapabilityToolRoute} (hu : userId ≠ "") : LetsThrough s userId route ↔
    ∀ scope ∈ route.requiredScopes, scope ∈ (s.loaded (userId, route.connector)).scopes := by
  rw [LetsThrough, scopeGate]
  split
  · rename_i hnil
    simp [hnil]
  · obtain ⟨r, t, hexec, rfl⟩ := wp_iff.mp (getGrantedScopes_wp s route.connector hu)
    rw [exec_bind, hexec, Option.bind_some, thenExec, ← missing_eq_nil_iff]
    dsimp only
    split
    · rename_i hmissing
      exact iff_of_true rfl hmissing
    · rename_i hmissing
      refine iff_of_false ?_ hmissing
      intro h
      cases h

theorem permOf_grant (rows : List PermRow) (row : PermRow) :
    (permOf (upsertPerm row (fun r => { r with scopes := row.scopes }) rows) row.key).scopes = row.scopes := by
  rw [upsertPerm]
  split
  · rename_i hany
    obtain ⟨r, hr, hkey⟩ := List.any_eq_true.mp hany
    rw [permOf, Table.find?_updateWhere (by intro r; rfl)]
    cases hfind : rows.find? fun r => decide (r.key = row.key) with
    | none => exact absurd hkey (List.find?_eq_none.mp hfind r hr)
    | some r =>
      have hfound := List.find?_some hfind
      rw [Option.map_some, if_pos hfound]
  · rename_i hany
    have hnone : rows.find? (fun r => decide (r.key = row.key)) = none := by
      rw [List.find?_eq_none]
      intro r hr hkey
      exact hany (List.any_eq_true.mpr ⟨r, hr, hkey⟩)
    rw [permOf, List.find?_append, hnone]
    simp

theorem loaded_grant (hu : userId ≠ "") {scopes clean : List String} (hclean : normaliseScopes scopes = .ok clean) :
    (((grantScopes userId connector scopes).after s).loaded (userId, connector)).scopes = clean := by
  have hexec : (grantScopes userId connector scopes).exec s = some (.ok (), (s.setRows
      (upsertPerm ⟨userId, connector, defaultMode, clean⟩ (fun r => { r with scopes := clean })
        s.connectorPermissions)).drop (userId, connector)) := by
    rw [grantScopes, requireUser_of_ne _ hu, hclean]
    rfl
  have hcached : ∀ t : PermStore, (t.drop (userId, connector)).cached (userId, connector) = none := by
    intro t
    rw [PermStore.cached, PermStore.drop, AList.lookup_erase]
  simp only [Prog.after, hexec, Option.map_some, Option.getD_some, PermStore.loaded, hcached, Option.getD_none]
  exact permOf_grant s.connectorPermissions ⟨userId, connector, defaultMode, clean⟩

/-- A user can grant what an accepted manifest requires exactly when it declares no scope with blanks
around it, or has no tools. -/
theorem accepted_grantable_iff {env : CapabilityEnv} {svc : RegisteredService}
    (hs : Reaches permCallStep (fun _ _ => True) noPermissions s)
    (haccepted : manifestAccepted { env with strip := strip } svc.manifest = true) (hu : userId ≠ "") :
    Grantable s userId svc ↔
      svc.manifest.tools = [] ∨ ∀ scope ∈ svc.manifest.permissionsRequired, strip scope = scope := by
  have hscopes : ∀ scope ∈ svc.manifest.permissionsRequired, Permissions.isScope (strip scope) = true := by
    intro scope hscope
    simp only [manifestAccepted, malformedRequiredScopes, Bool.and_eq_true, List.isEmpty_iff,
      List.filter_eq_nil_iff] at haccepted
    have hvalid := haccepted.1.2 (strip scope) (List.mem_map_of_mem hscope)
    exact isScope_of_validated (by simpa using hvalid)
  constructor
  · rintro ⟨calls, hcalls⟩
    cases htools : svc.manifest.tools with
    | nil => exact Or.inl rfl
    | cons ct rest =>
      right
      intro scope hscope
      have hthrough := hcalls ct (by rw [htools]; exact List.mem_cons_self)
      exact (grantAll_stripped (stored_stripped hs) calls).loaded _ scope
        ((letsThrough_iff hu).mp hthrough scope hscope)
  · rintro (htools | hstripped)
    · refine ⟨[], ?_⟩
      intro ct hct
      rw [htools] at hct
      cases hct
    · obtain ⟨clean, hclean⟩ := normaliseScopes_ok hscopes
      refine ⟨[⟨userId, "capability." ++ svc.manifest.id, svc.manifest.permissionsRequired⟩], ?_⟩
      intro ct _
      rw [letsThrough_iff hu]
      intro scope hscope
      have hmem := (normaliseScopes_spec hclean).2 scope hscope
      rw [hstripped scope hscope] at hmem
      show scope ∈ (((grantScopes userId ("capability." ++ svc.manifest.id)
        svc.manifest.permissionsRequired).after s).loaded (userId, "capability." ++ svc.manifest.id)).scopes
      rw [loaded_grant hu hclean]
      exact hmem

end Gate

namespace ScopesExample

/-- A service with one tool that requires the scope as it is written. -/
def service (scope : String) : RegisteredService :=
  { manifest :=
      { id := "acme.mail", version := "1.0.0", capabilitiesEndpoint := "/capabilities", contractVersion := "1.0"
        minCoreVersion := "0.1.0", permissionsRequired := [scope], externalEndpoints := []
        tools := [{ name := "search", isWrite := false, path := none }] }
    baseUrl := "http://mail:9000", registeredAt := 0, healthy := true, isCommunity := true
    externalEndpoints := [] }

def env : CapabilityEnv :=
  { strip := strip, lower := id, split := fun _ => [], parseManifest := fun _ => none
    contractMajor := fun _ => some 1, coreAtLeast := fun _ => some true }

end ScopesExample

open ScopesExample

theorem mail_read_grantable :
    manifestAccepted { ScopesExample.env with strip := strip } (service "mail:read").manifest = true ∧
      Grantable noPermissions "alice" (service "mail:read") := by
  have haccepted : manifestAccepted { ScopesExample.env with strip := strip }
      (service "mail:read").manifest = true := by
    decide +kernel
  refine ⟨haccepted, (accepted_grantable_iff .start haccepted (by decide)).mpr (Or.inr ?_)⟩
  decide +kernel

/-- A blank before the scope: the manifest is accepted, and no grant lets a call through. -/
theorem blank_scope_ungrantable :
    manifestAccepted { ScopesExample.env with strip := strip } (service " mail:read").manifest = true ∧
      ¬ Grantable noPermissions "alice" (service " mail:read") := by
  refine ⟨by decide +kernel, ?_⟩
  rintro ⟨calls, hcalls⟩
  have hthrough := (letsThrough_iff (by decide)).mp (hcalls _ List.mem_cons_self) " mail:read" List.mem_cons_self
  have hstrip := (grantAll_stripped noPermissions_stripped calls).loaded _ _ hthrough
  exact absurd hstrip (by decide +kernel)

end Lumogis
