import Lumogis.MergeProjections

/-!
# MergedNames

The names that the lookup of `_upsert_entity` knows an entity by, and what a committed merge makes
of them. The aliases of both entities go to the winner; the loser's own name is no alias of it, and
is lost.

The lookup has no `ORDER BY`: of several entities that answer to a name it may find any
(`Resolves`). An entity beside the two that shares a name with one of them may be found in their
place after the merge.
-/

namespace Lumogis

open Prog

/-- A personal source of the user's, published from nothing. -/
def EntityRow.isOwn (userId : String) (r : EntityRow) : Bool :=
  r.userId == userId && r.scope == .personal && r.publishedFrom == none

/-- What the entity is looked up by. -/
def EntityRow.names (env : Env) (r : EntityRow) : List String :=
  env.lower r.name :: r.aliases.map env.lower

/-- The row that the lookup finds, in some order of the table. -/
def Resolves (env : Env) (userId name : String) (db : Db) (r : EntityRow) : Prop :=
  ∃ rows : List EntityRow, rows.Perm db.entities ∧ rows.find? (EntityRow.answersTo env userId name) = some r

/-- A name that may have resolved to the winner or the loser resolves to the winner. -/
def KeepsNames (env : Env) (userId winner loser : String) (old new : Db) : Prop :=
  ∀ name r, Resolves env userId name old r → r.entityId = winner ∨ r.entityId = loser →
    (∃ r', Resolves env userId name new r') ∧
      ∀ r', Resolves env userId name new r' → r'.entityId = winner

/-- A name that can only have resolved to the winner or the loser resolves to the winner. -/
def KeepsOwnNames (env : Env) (userId winner loser : String) (old new : Db) : Prop :=
  ∀ name, (∃ r, Resolves env userId name old r) →
    (∀ r, Resolves env userId name old r → r.entityId = winner ∨ r.entityId = loser) →
    (∃ r', Resolves env userId name new r') ∧
      ∀ r', Resolves env userId name new r' → r'.entityId = winner

/-- The loser's name is one of those that the winner is left with. -/
def NameCarried (env : Env) (w l : EntityRow) : Prop :=
  env.lower l.name ∈ env.lower w.name :: (w.aliases ++ l.aliases).map env.lower

/-- No other entity of the user shares a name with either. -/
def NamesApart (env : Env) (userId : String) (w l : EntityRow) (db : Db) : Prop :=
  ∀ r ∈ db.entities, r.isOwn userId = true → r.entityId ≠ w.entityId → r.entityId ≠ l.entityId →
    ∀ k ∈ r.names env, k ∉ w.names env ∧ k ∉ l.names env

instance (env : Env) (w l : EntityRow) : Decidable (NameCarried env w l) :=
  inferInstanceAs (Decidable (_ ∈ _))

instance (env : Env) (userId : String) (w l : EntityRow) (db : Db) :
    Decidable (NamesApart env userId w l db) :=
  inferInstanceAs (Decidable (∀ r ∈ db.entities, r.isOwn userId = true → r.entityId ≠ w.entityId →
    r.entityId ≠ l.entityId → ∀ k ∈ r.names env, k ∉ w.names env ∧ k ∉ l.names env))

/-! ## The lookup -/

section Lookup

variable {env : Env} {userId name : String} {db : Db} {r : EntityRow}

theorem answersTo_iff :
    r.answersTo env userId name = true ↔ r.isOwn userId = true ∧ env.lower name ∈ r.names env := by
  simp only [EntityRow.answersTo, EntityRow.isOwn, EntityRow.names, Bool.and_eq_true, Bool.or_eq_true,
    beq_iff_eq, List.contains_iff_mem, List.mem_cons]
  rw [eq_comm (a := env.lower r.name)]

theorem resolves_iff : Resolves env userId name db r ↔
    r ∈ db.entities ∧ r.isOwn userId = true ∧ env.lower name ∈ r.names env := by
  rw [← answersTo_iff]
  constructor
  · rintro ⟨rows, hperm, hfind⟩
    exact ⟨hperm.mem_iff.mp (List.mem_of_find?_eq_some hfind), List.find?_some hfind⟩
  · rintro ⟨hr, hanswers⟩
    refine ⟨r :: db.entities.erase r, (List.perm_cons_erase hr).symm, ?_⟩
    rw [List.find?_cons_of_pos hanswers]

theorem mem_names {k : String} (h : k ∈ r.names env) : ∃ a, k = env.lower a := by
  rcases List.mem_cons.mp h with rfl | h
  · exact ⟨_, rfl⟩
  · obtain ⟨a, -, rfl⟩ := List.mem_map.mp h
    exact ⟨a, rfl⟩

end Lookup

/-! ## The rows after a merge -/

/-- From `s` to `t` the entities published from nothing stay as they are. -/
def SourcesStay (s t : Store) : Prop :=
  ∀ r : EntityRow, r.publishedFrom = none → (r ∈ t.db.entities ↔ r ∈ s.db.entities)

theorem SourcesStay.of_eq {s t : Store} (h : t.db.entities = s.db.entities) : SourcesStay s t :=
  fun r _ => by rw [h]

theorem SourcesStay.refl (s : Store) : SourcesStay s s := of_eq rfl

theorem SourcesStay.trans {s t u : Store} (h : SourcesStay s t) (h' : SourcesStay t u) :
    SourcesStay s u :=
  fun r hr => (h' r hr).trans (h r hr)

theorem mem_deleteEntities_source {p : EntityRow → Bool} {db : Db} {r : EntityRow}
    (hr : r.publishedFrom = none) :
    r ∈ (db.deleteEntities p).entities ↔ r ∈ db.entities ∧ p r = false := by
  rw [Db.deleteEntities, Table.mem_deleteWhere]
  simp [Db.entityGone, hr]

theorem sweepEntities_sources (loser winner : String) :
    Always SourcesStay (sweepEntities loser winner) := by
  refine Always.bind (always_execute fun s r hr => ?_) fun _ => ?_
  · rw [mem_deleteEntities_source hr]
    simp [Projecting.collides, EntityRow.projecting, hr]
  · refine always_statementE SourcesStay.refl fun s a db h r hr => ?_
    simp only [Projecting.remap] at h
    split_ifs at h
    cases h
    -- the rows that are repointed are not published from nothing, before or after
    rw [Table.mem_updateWhere]
    constructor
    · rintro (⟨x, -, -, rfl⟩ | ⟨hm, -⟩)
      · cases hr
      · exact hm
    · intro hm
      refine .inr ⟨hm, ?_⟩
      simp [EntityRow.projecting, hr]

theorem remapPublishedFrom_sources (pg : PgTypes) (loser winner : String) :
    Always SourcesStay (remapPublishedFrom pg loser winner) :=
  remapPublishedFrom_always (fun _ _ h => .of_eq h.entities) pg (sweepEntities_sources loser winner)

/-- The winner's row after phase A. -/
def mergedRow (w l : EntityRow) : EntityRow :=
  { w with
    aliases := mergedList w.aliases l.aliases
    contextTags := mergedList w.contextTags l.contextTags
    mentionCount := w.mentionCount + l.mentionCount
    graphProjectedAt := none }

/-- The entities published from nothing: the winner's row is `mergedRow w l`, the loser's is gone, the
others are as they were. -/
def MergedSources (w l : EntityRow) (old new : List EntityRow) : Prop :=
  ∀ r : EntityRow, r.publishedFrom = none →
    (r ∈ new ↔ r = mergedRow w l ∨ (r ∈ old ∧ r.entityId ≠ w.entityId ∧ r.entityId ≠ l.entityId))

/-- The user's sources `w` and `l`, each the only row of its id. -/
structure MergePair (userId winner loser : String) (w l : EntityRow) (db : Db) : Prop where
  keys : (db.entities.map EntityRow.entityId).Nodup
  winner : w ∈ db.entities ∧ w.isOwn userId = true ∧ w.entityId = winner
  loser : l ∈ db.entities ∧ l.isOwn userId = true ∧ l.entityId = loser

section Merge

variable {env : Env} {userId winner loser : String} {w l : EntityRow} {s t : Store}

theorem MergePair.eq_winner (h : MergePair userId winner loser w l s.db) {r : EntityRow}
    (hr : r ∈ s.db.entities) (hid : r.entityId = winner) : r = w :=
  List.inj_on_of_nodup_map h.keys hr h.winner.1 (hid.trans h.winner.2.2.symm)

theorem MergePair.eq_loser (h : MergePair userId winner loser w l s.db) {r : EntityRow}
    (hr : r ∈ s.db.entities) (hid : r.entityId = loser) : r = l :=
  List.inj_on_of_nodup_map h.keys hr h.loser.1 (hid.trans h.loser.2.2.symm)

theorem isOwn_iff {r : EntityRow} : r.isOwn userId = true ↔
    r.userId = userId ∧ r.scope = .personal ∧ r.publishedFrom = none := by
  simp [EntityRow.isOwn, and_assoc]

theorem updateWinner_sources (h : MergePair userId winner loser w l s.db) (hst : SourcesStay s t) :
    OnOk (fun _ u => ∀ r : EntityRow, r.publishedFrom = none → (r ∈ u.db.entities ↔
        r = mergedRow w l ∨ (r ∈ s.db.entities ∧ r.entityId ≠ winner)))
      (updateWinner winner userId w l) t := by
  obtain ⟨hw, hown, hid⟩ := h.winner
  obtain ⟨huser, -, hpub⟩ := isOwn_iff.mp hown
  refine OnOk.act fun r hr => ?_
  show r ∈ Table.updateWhere _ _ t.db.entities ↔ _
  rw [Table.mem_updateWhere]
  constructor
  · rintro (⟨x, hx, hbelongs, rfl⟩ | ⟨hm, hnot⟩)
    · simp only [EntityRow.belongsTo, Bool.and_eq_true, beq_iff_eq] at hbelongs
      have hxw : x = w := h.eq_winner ((hst x hr).mp hx) hbelongs.1
      exact .inl (by rw [hxw]; rfl)
    · have hm := (hst r hr).mp hm
      refine .inr ⟨hm, fun he => ?_⟩
      rw [h.eq_winner hm he] at hnot
      simp [EntityRow.belongsTo, hid, huser] at hnot
  · rintro (rfl | ⟨hm, hother⟩)
    · refine .inl ⟨w, (hst w hpub).mpr hw, ?_, rfl⟩
      simp [EntityRow.belongsTo, hid, huser]
    · exact .inr ⟨(hst r hr).mpr hm, by simp [EntityRow.belongsTo, hother]⟩

theorem runPhaseA_sources (pg : PgTypes) (hne : winner ≠ loser)
    (h : MergePair userId winner loser w l s.db) :
    OnOk (fun _ t => MergedSources w l s.db.entities t.db.entities)
      (runPhaseA pg winner loser userId) s := by
  obtain ⟨hlm, hlown, hlid⟩ := h.loser
  refine OnOk.bind ((fetchMergeEntity_ok "winner" winner userId s).mono ?_)
  rintro w' t ⟨rfl, hw', hwb⟩
  simp only [EntityRow.belongsTo, Bool.and_eq_true, beq_iff_eq] at hwb
  obtain rfl := h.eq_winner hw' hwb.1
  refine OnOk.bind ((fetchMergeEntity_ok "loser" loser userId t).mono ?_)
  rintro l' t' ⟨rfl, hl', hlb⟩
  simp only [EntityRow.belongsTo, Bool.and_eq_true, beq_iff_eq] at hlb
  obtain rfl := h.eq_loser hl' hlb.1
  refine OnOk.bind (OnOk.act (OnOk.bind (OnOk.act (OnOk.bind ?_))))
  have hsessions := ((updateSessions_spares pg winner loser userId).mono
    fun _ _ h => SourcesStay.of_eq h.entities).onOk SourcesStay.refl (fun _ _ _ => SourcesStay.trans)
  refine (hsessions _).mono fun _ s₁ h₁ => ?_
  have h₁ : SourcesStay t' s₁ := SourcesStay.trans (SourcesStay.of_eq rfl) h₁
  refine OnOk.bind ((updateWinner_sources h h₁).mono fun _ s₂ h₂ => ?_)
  have hremap := (remapPublishedFrom_sources pg loser winner).onOk SourcesStay.refl
    (fun _ _ _ => SourcesStay.trans) s₂
  refine OnOk.bind (hremap.mono fun _ s₃ h₃ => OnOk.bind (OnOk.act (OnOk.ret fun r hr => ?_)))
  show r ∈ (s₃.db.deleteEntities _).entities ↔ _
  rw [mem_deleteEntities_source hr, h₃ r hr, h₂ r hr, hwb.1, hlid]
  constructor
  · rintro ⟨rfl | ⟨hm, hother⟩, hnot⟩
    · exact .inl rfl
    · refine .inr ⟨hm, hother, fun he => ?_⟩
      rw [h.eq_loser hm he] at hnot
      simp [EntityRow.belongsTo, hlb] at hnot
  · rintro (rfl | ⟨hm, hother, hnot⟩)
    · refine ⟨.inl rfl, ?_⟩
      simp [EntityRow.belongsTo, mergedRow, hwb.1, hne]
    · exact ⟨.inr ⟨hm, hother⟩, by simp [EntityRow.belongsTo, hnot]⟩

theorem mergeEntities_of_phaseA {P : List EntityRow → Prop} {pg : PgTypes}
    (hP : winner ≠ loser → ∀ u : Store, u.db = s.db →
      OnOk (fun _ t => P t.db.entities) (runPhaseA pg winner loser userId) u) :
    OnOk (fun _ t => P t.db.entities) (mergeEntities pg env winner loser userId) s := by
  unfold mergeEntities
  split_ifs with hne
  · exact OnOk.raise
  · have htxn : OnOk (fun _ t => P t.db.entities) (mergeTransaction pg winner loser userId) s := by
      refine OnOk.bind ((beginTxn_ok _ s).mono fun _ u hu => ?_)
      refine OnOk.tryCatch (OnOk.bind (onOk_select ?_)) fun _ _ => OnOk.bind (OnOk.of_forall
        fun _ _ => OnOk.raise)
      refine OnOk.bind ((hP hne u hu.1).mono fun a v hv => ?_)
      exact OnOk.bind (onOk_select (OnOk.bind (OnOk.act (OnOk.ret hv))))
    refine OnOk.bind (htxn.mono fun r u hu => ?_)
    have hB := (runPhaseB_points env winner loser userId ((r.2.map EntityRow.name).getD "")
      ((r.2.map EntityRow.aliases).getD [])).onOk (fun _ => ⟨rfl, fun _ h _ => h⟩)
      (fun _ _ _ h h' => ⟨h'.1.trans h.1, fun pt hpt hsh => h.2 pt (h'.2 pt hpt hsh) hsh⟩) u
    refine OnOk.bind (hB.mono fun _ v hv => OnOk.ret ?_)
    rw [hv.1]
    exact hu

theorem mergeEntities_sources {pg : PgTypes} {r : MergeResult}
    (h : MergePair userId winner loser w l s.db)
    (hrun : Faulty (mergeEntities pg env winner loser userId) s (.ok r) t) :
    MergedSources w l s.db.entities t.db.entities := by
  refine (mergeEntities_of_phaseA fun hne u hu => ?_).faulty hrun
  rw [← hu] at h ⊢
  exact runPhaseA_sources pg hne h

theorem resolves_merged {pg : PgTypes} {r : MergeResult}
    (h : MergePair userId winner loser w l s.db)
    (hrun : Faulty (mergeEntities pg env winner loser userId) s (.ok r) t) (name : String)
    (r' : EntityRow) :
    Resolves env userId name t.db r' ↔
      (r' = mergedRow w l ∧ env.lower name ∈ (mergedRow w l).names env) ∨
      (Resolves env userId name s.db r' ∧ r'.entityId ≠ winner ∧ r'.entityId ≠ loser) := by
  have hsources := mergeEntities_sources h hrun
  obtain ⟨-, hown, rfl⟩ := h.winner
  obtain ⟨-, -, rfl⟩ := h.loser
  rw [resolves_iff, resolves_iff]
  constructor
  · rintro ⟨hr', hown', hname⟩
    rcases (hsources r' (isOwn_iff.mp hown').2.2).mp hr' with rfl | ⟨hold, hnw, hnl⟩
    · exact .inl ⟨rfl, hname⟩
    · exact .inr ⟨⟨hold, hown', hname⟩, hnw, hnl⟩
  · rintro (⟨rfl, hname⟩ | ⟨⟨hold, hown', hname⟩, hnw, hnl⟩)
    · exact ⟨(hsources (mergedRow w l) (isOwn_iff.mp hown).2.2).mpr (.inl rfl), hown, hname⟩
    · exact ⟨(hsources r' (isOwn_iff.mp hown').2.2).mpr (.inr ⟨hold, hnw, hnl⟩), hown', hname⟩

theorem mem_names_mergedRow {k : String} : k ∈ (mergedRow w l).names env ↔
    k = env.lower w.name ∨ k ∈ w.aliases.map env.lower ∨ k ∈ l.aliases.map env.lower := by
  simp only [EntityRow.names, mergedRow, mergedList, List.mem_cons, List.mem_map,
    List.mem_eraseDups, List.mem_append]
  constructor
  · rintro (rfl | ⟨a, ha | ha, rfl⟩)
    · exact .inl rfl
    · exact .inr (.inl ⟨a, ha, rfl⟩)
    · exact .inr (.inr ⟨a, ha, rfl⟩)
  · rintro (rfl | ⟨a, ha, rfl⟩ | ⟨a, ha, rfl⟩)
    · exact .inl rfl
    · exact .inr ⟨a, .inl ha, rfl⟩
    · exact .inr ⟨a, .inr ha, rfl⟩

theorem nameCarried_iff : NameCarried env w l ↔ env.lower l.name ∈ (mergedRow w l).names env := by
  rw [NameCarried, mem_names_mergedRow, List.mem_cons, List.map_append, List.mem_append]

theorem mergedRow_names {k : String} (h : k ∈ w.names env ∨ k ∈ l.names env) :
    k ∈ (mergedRow w l).names env ∨ k = env.lower l.name := by
  rw [mem_names_mergedRow]
  rcases h with h | h
  · exact .inl ((List.mem_cons.mp h).imp_right .inl)
  · rcases List.mem_cons.mp h with rfl | h
    · exact .inr rfl
    · exact .inl (.inr (.inr h))

/-! ## The main results -/

/-- A committed merge keeps every name that resolved to one of the two exactly when the loser's own
name is carried over and no third entity shares a name with them. -/
theorem merge_keeps_names_iff {pg : PgTypes} {r : MergeResult}
    (h : MergePair userId winner loser w l s.db)
    (hrun : Faulty (mergeEntities pg env winner loser userId) s (.ok r) t) :
    KeepsNames env userId winner loser s.db t.db ↔
      NameCarried env w l ∧ NamesApart env userId w l s.db := by
  have hmerged := resolves_merged h hrun
  obtain ⟨hw, hwown, hwid⟩ := h.winner
  obtain ⟨hl, hlown, hlid⟩ := h.loser
  constructor
  · intro hkeeps
    refine ⟨?_, fun x hx hown hnw hnl k hk => ?_⟩
    · -- the loser answers to its name, so the winner has to
      have hold : Resolves env userId l.name s.db l :=
        resolves_iff.mpr ⟨hl, hlown, List.mem_cons_self⟩
      obtain ⟨⟨r', hr'⟩, honly⟩ := hkeeps l.name l hold (.inr hlid)
      rcases (hmerged l.name r').mp hr' with ⟨-, hname⟩ | ⟨-, hne, -⟩
      · exact nameCarried_iff.mpr hname
      · exact absurd (honly r' hr') hne
    · -- the third entity still answers to what it shared with one of the two
      obtain ⟨a, rfl⟩ := mem_names hk
      have hthird : Resolves env userId a t.db x :=
        (hmerged a x).mpr (.inr ⟨resolves_iff.mpr ⟨hx, hown, hk⟩, hwid ▸ hnw, hlid ▸ hnl⟩)
      constructor
      · intro hshared
        have hold := resolves_iff.mpr ⟨hw, hwown, hshared⟩
        exact hnw (((hkeeps a w hold (.inl hwid)).2 x hthird).trans hwid.symm)
      · intro hshared
        have hold := resolves_iff.mpr ⟨hl, hlown, hshared⟩
        exact hnw (((hkeeps a l hold (.inr hlid)).2 x hthird).trans hwid.symm)
  · rintro ⟨hcarried, hapart⟩ name x hx hid
    obtain ⟨hmem, hown, hname⟩ := resolves_iff.mp hx
    have hnames : env.lower name ∈ w.names env ∨ env.lower name ∈ l.names env := by
      rcases hid with hid | hid
      · exact .inl (h.eq_winner hmem hid ▸ hname)
      · exact .inr (h.eq_loser hmem hid ▸ hname)
    refine ⟨⟨mergedRow w l, ?_⟩, fun r' hr' => ?_⟩
    · have hname' : env.lower name ∈ (mergedRow w l).names env := by
        rcases mergedRow_names hnames with hk | hk
        · exact hk
        · exact hk ▸ nameCarried_iff.mp hcarried
      exact (hmerged name _).mpr (.inl ⟨rfl, hname'⟩)
    · rcases (hmerged name r').mp hr' with ⟨rfl, -⟩ | ⟨hold, hnw, hnl⟩
      · exact hwid
      · obtain ⟨hmem', hown', hname'⟩ := resolves_iff.mp hold
        have hthird := hapart r' hmem' hown' (hwid ▸ hnw) (hlid ▸ hnl) _ hname'
        exact absurd hnames (not_or.mpr hthird)

/-- Of the names that nobody else answered to, only the loser's own can get lost. -/
theorem merge_keeps_own_names_iff {pg : PgTypes} {r : MergeResult}
    (h : MergePair userId winner loser w l s.db)
    (hrun : Faulty (mergeEntities pg env winner loser userId) s (.ok r) t) :
    KeepsOwnNames env userId winner loser s.db t.db ↔ NameCarried env w l ∨
      ∃ x, Resolves env userId l.name s.db x ∧ x.entityId ≠ winner ∧ x.entityId ≠ loser := by
  have hmerged := resolves_merged h hrun
  obtain ⟨-, -, hwid⟩ := h.winner
  obtain ⟨hl, hlown, hlid⟩ := h.loser
  constructor
  · intro hkeeps
    by_cases hthird : ∃ x, Resolves env userId l.name s.db x ∧ x.entityId ≠ winner ∧
        x.entityId ≠ loser
    · exact .inr hthird
    · have hold : Resolves env userId l.name s.db l :=
        resolves_iff.mpr ⟨hl, hlown, List.mem_cons_self⟩
      obtain ⟨⟨r', hr'⟩, -⟩ := hkeeps l.name ⟨l, hold⟩ fun x hx => by
        by_contra hne
        exact hthird ⟨x, hx, not_or.mp hne⟩
      rcases (hmerged l.name r').mp hr' with ⟨-, hname⟩ | hother
      · exact .inl (nameCarried_iff.mpr hname)
      · exact absurd ⟨r', hother⟩ hthird
  · rintro hcond name ⟨x, hx⟩ honly
    obtain ⟨hmem, hown, hname⟩ := resolves_iff.mp hx
    have hnames : env.lower name ∈ w.names env ∨ env.lower name ∈ l.names env := by
      rcases honly x hx with hid | hid
      · exact .inl (h.eq_winner hmem hid ▸ hname)
      · exact .inr (h.eq_loser hmem hid ▸ hname)
    have hcarried : env.lower name ∈ (mergedRow w l).names env := by
      rcases mergedRow_names hnames with hk | hk
      · exact hk
      · rcases hcond with hcarried | ⟨y, hy, hnw, hnl⟩
        · exact hk ▸ nameCarried_iff.mp hcarried
        · -- the third entity answers to the name as well
          have hy' : Resolves env userId name s.db y := by
            obtain ⟨hm, ho, hn⟩ := resolves_iff.mp hy
            exact resolves_iff.mpr ⟨hm, ho, hk ▸ hn⟩
          exact absurd (honly y hy') (not_or.mpr ⟨hnw, hnl⟩)
    refine ⟨⟨mergedRow w l, (hmerged name _).mpr (.inl ⟨rfl, hcarried⟩)⟩, fun r' hr' => ?_⟩
    rcases (hmerged name r').mp hr' with ⟨rfl, -⟩ | ⟨hold, hnw, hnl⟩
    · exact hwid
    · exact absurd (honly r' hold) (not_or.mpr ⟨hnw, hnl⟩)

end Merge

namespace NamesExample

open StrandExample

/-- The winner `a` with aliases. -/
def startWith (aliases : List String) : Store :=
  { start with db := { start.db with entities := [{ entity "a" with aliases := aliases }, entity "b"] } }

/-- After `b` was merged into `a`. -/
def mergedWith (aliases : List String) : Store :=
  { start with
    db := { start.db with
      entities := [{ entity "a" with aliases := aliases, mentionCount := 2 }] }
    entityPoints := [winnerPoint env "a" "ann" "a" aliases []] }

theorem pair (aliases : List String) :
    MergePair "ann" "a" "b" { entity "a" with aliases := aliases } (entity "b")
      (startWith aliases).db where
  keys := by simp [startWith, entity]
  winner := ⟨by simp [startWith], rfl, rfl⟩
  loser := ⟨by simp [startWith], rfl, rfl⟩

end NamesExample

open StrandExample NamesExample in
/-- `b` is merged into `a`; nobody goes by its name any more. -/
theorem merge_loses_name :
    MergePair "ann" "a" "b" (entity "a") (entity "b") start.db ∧
      (mergeEntities pg env "a" "b" "ann").exec start = some (.ok mergeResult, mergedWith []) ∧
      Resolves env "ann" "b" start.db (entity "b") ∧
      (∀ r, ¬ Resolves env "ann" "b" (mergedWith []).db r) ∧
      ¬ KeepsNames env "ann" "a" "b" start.db (mergedWith []).db := by
  have hbefore : Resolves env "ann" "b" start.db (entity "b") := resolves_iff.mpr (by decide)
  have hafter : ∀ r, ¬ Resolves env "ann" "b" (mergedWith []).db r := by
    intro r hr
    obtain ⟨hmem, -, hname⟩ := resolves_iff.mp hr
    rw [List.mem_singleton.mp hmem] at hname
    revert hname
    decide
  refine ⟨pair [], by decide, hbefore, hafter, fun hkeeps => ?_⟩
  obtain ⟨⟨r, hr⟩, -⟩ := hkeeps "b" (entity "b") hbefore (.inr rfl)
  exact hafter r hr

open StrandExample NamesExample in
/-- The loser's name is an alias of the winner already. -/
theorem merge_keeps_names_alias :
    KeepsNames env "ann" "a" "b" (startWith ["b"]).db (mergedWith ["b"]).db := by
  have hrun : (mergeEntities pg env "a" "b" "ann").exec (startWith ["b"]) =
      some (.ok mergeResult, mergedWith ["b"]) := by decide
  exact (merge_keeps_names_iff (pair ["b"]) (Faulty.of_exec hrun)).mpr (by decide)

open StrandExample NamesExample in
theorem merge_keeps_own_names_alias :
    KeepsOwnNames env "ann" "a" "b" (startWith ["b"]).db (mergedWith ["b"]).db ↔
      NameCarried env { entity "a" with aliases := ["b"] } (entity "b") ∨
        ∃ x, Resolves env "ann" "b" (startWith ["b"]).db x ∧ x.entityId ≠ "a" ∧ x.entityId ≠ "b" := by
  have hrun : (mergeEntities pg env "a" "b" "ann").exec (startWith ["b"]) =
      some (.ok mergeResult, mergedWith ["b"]) := by decide
  exact merge_keeps_own_names_iff (pair ["b"]) (Faulty.of_exec hrun)

end Lumogis
