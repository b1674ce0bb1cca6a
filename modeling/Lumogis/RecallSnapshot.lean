import Lumogis.Recall

/-!
# Lumogis.RecallSnapshot

Recall as of an instant. The legs and the hydration only ask that a memory has not ended before the
instant, so that one that ends at it, or begins after it, comes back as well. The recalls of a user show
a snapshot exactly when the user has no such memory (`recall_snapshot`).
-/

namespace Lumogis

open RankFusion

/-- The instant lies in the interval, whose end is not a part of it. -/
def ValidAt (asOf validFrom : Nat) (validUntil : Option Nat) : Prop :=
  validFrom ≤ asOf ∧ ∀ t ∈ validUntil, asOf < t

section Snapshot

variable {F : Type} [Zero F] [Add F] [LinearOrder F] {env : RecallEnv F} {store : RecallStore} {req : RecallRequest}

theorem RecallRequest.accepted_eq {r : RecallRequest} (h : req.accepted = some r) :
    ∃ bank, r = { req with bank := bank } := by
  rw [RecallRequest.accepted] at h
  split at h
  · cases h
  · obtain ⟨bank, -, rfl⟩ := Option.map_eq_some_iff.mp h
    exact ⟨bank, rfl⟩

theorem mem_recall {m : RecalledMemory F} (hm : m ∈ recallMemories env store req) :
    ∃ row ∈ store.memories, row.userId = req.userId ∧ notEnded req.asOf row.validUntil = true ∧
      m.validFrom = row.validFrom ∧ m.validUntil = row.validUntil := by
  cases haccepted : req.accepted with
  | none =>
    rw [recallMemories, haccepted] at hm
    cases hm
  | some r =>
    have hfound : ∃ row ∈ foundMemories env store r, m = (resultOf env store r row).memory := by
      cases hanswer : answeringReranker env r with
      | none =>
        obtain ⟨p, hp, hrecall⟩ := (recall_of_none env store haccepted hanswer).reordered
        rw [hrecall] at hm
        obtain ⟨row, hrow, rfl⟩ := List.mem_map.mp hm
        exact ⟨row, hp.mem_iff.mp (List.mem_of_mem_take hrow), rfl⟩
      | some reranker =>
        obtain ⟨l, p, hl, hp, hrecall⟩ := recall_of_some store haccepted hanswer
        rw [hrecall] at hm
        obtain ⟨row, hrow, rfl⟩ := List.mem_map.mp hm
        have hrow := hp.mem_iff.mp (List.mem_of_mem_take hrow)
        exact ⟨row, hl.mem_iff.mp (List.mem_of_mem_take hrow), rfl⟩
    obtain ⟨row, hrow, rfl⟩ := hfound
    obtain ⟨hmem, hrec, -⟩ := mem_foundMemories.mp hrow
    obtain ⟨bank, rfl⟩ := RecallRequest.accepted_eq haccepted
    simp only [recallable, Bool.and_eq_true, beq_iff_eq] at hrec
    exact ⟨row, hmem, hrec.1.1, hrec.1.2, rfl, rfl⟩

omit [Zero F] [Add F] [LinearOrder F] in
theorem notEnded_iff {asOf : Nat} {validUntil : Option Nat} :
    notEnded asOf validUntil = true ↔ ∀ t ∈ validUntil, asOf ≤ t := by
  cases validUntil with
  | none => simp [notEnded]
  | some t => simp [notEnded]

/-! ## A query that finds one memory -/

/-- Only the vector search finds anything. -/
def semanticEnv (F : Type) [Zero F] (memoryId : Nat) : RecallEnv F where
  search := fun _ _ _ => [some memoryId]
  tsMatches := fun _ _ => false
  tsRank := fun _ _ => 0
  seedEntities := fun _ _ => []
  legFails := fun _ => false
  reranker := none
  rerankFails := false
  recip := fun _ => 0

def semanticRequest (userId : String) (asOf : Nat) : RecallRequest where
  userId := userId
  bank := "*"
  query := "q"
  limit := 1
  retrievalStrategies := ["semantic"]
  asOf := asOf
  rerank := false

omit [Add F] [LinearOrder F] in
theorem found_semantic {row : TimedMemory} (hrow : row ∈ store.memories) {asOf : Nat}
    (hopen : notEnded asOf row.validUntil = true) :
    foundMemories (semanticEnv F row.id) store (semanticRequest row.userId asOf) = [row] := by
  have hranked : ranked (semanticEnv F row.id) store (semanticRequest row.userId asOf) .semantic = [row.id] := by
    rw [ranked, if_pos (by simp [requestedStrategies, semanticRequest, Strategy.ofName])]
    rfl
  have hothers : ∀ s, s ≠ .semantic →
      ranked (semanticEnv F row.id) store (semanticRequest row.userId asOf) s = [] := by
    intro s hs
    rw [ranked, if_neg]
    simpa [requestedStrategies, semanticRequest, Strategy.ofName] using hs
  have hnodup : (foundMemories (semanticEnv F row.id) store (semanticRequest row.userId asOf)).Nodup :=
    (List.Nodup.of_map _ store.ids_nodup).filter _
  refine List.perm_singleton.mp ((List.perm_ext_iff_of_nodup hnodup (List.nodup_singleton row)).mpr ?_)
  intro m
  rw [mem_foundMemories, List.mem_singleton]
  constructor
  · rintro ⟨hm, -, s, -, hs⟩
    by_cases hsemantic : s = .semantic
    · subst hsemantic
      rw [hranked, List.mem_singleton] at hs
      exact List.inj_on_of_nodup_map store.ids_nodup hm hrow hs
    · rw [hothers s hsemantic] at hs
      cases hs
  · rintro rfl
    refine ⟨hrow, ?_, .semantic, by simp [validStrategies], by rw [hranked]; simp⟩
    simp [recallable, semanticRequest, inBank, isCrossBank, hopen]

theorem recall_semantic {row : TimedMemory} (hrow : row ∈ store.memories) {asOf : Nat}
    (hopen : notEnded asOf row.validUntil = true) :
    ∃ m ∈ recallMemories (semanticEnv F row.id) store (semanticRequest row.userId asOf),
      m.validFrom = row.validFrom ∧ m.validUntil = row.validUntil := by
  have haccepted : (semanticRequest row.userId asOf).accepted = some (semanticRequest row.userId asOf) := by
    have hquery : ¬ Permissions.strip "q" = "" := by decide +kernel
    have hbank : validateBankForRecall "*" = some "*" := by decide +kernel
    simp [RecallRequest.accepted, semanticRequest, hquery, hbank]
  obtain ⟨p, hp, hrecall⟩ := (recall_of_none (semanticEnv F row.id) store haccepted rfl).reordered
  rw [found_semantic hrow hopen] at hp
  rw [List.perm_singleton.mp hp] at hrecall
  rw [hrecall]
  exact ⟨_, List.mem_singleton_self _, rfl, rfl⟩

end Snapshot

theorem recall_snapshot {F : Type} [Zero F] [Add F] [LinearOrder F] (store : RecallStore) (userId : String) (asOf : Nat) :
    (∀ (env : RecallEnv F) (req : RecallRequest), req.userId = userId → req.asOf = asOf →
      ∀ m ∈ recallMemories env store req, ValidAt asOf m.validFrom m.validUntil) ↔
    ∀ row ∈ store.memories, row.userId = userId → notEnded asOf row.validUntil = true →
      row.validFrom ≤ asOf ∧ row.validUntil ≠ some asOf := by
  constructor
  · rintro hvalid row hrow rfl hopen
    obtain ⟨m, hm, hfrom, huntil⟩ := recall_semantic (F := F) hrow hopen
    obtain ⟨hbegun, hend⟩ := hvalid (semanticEnv F row.id) (semanticRequest row.userId asOf) rfl rfl m hm
    refine ⟨hfrom ▸ hbegun, ?_⟩
    intro hrowend
    exact absurd (hend asOf (huntil.trans hrowend)) (by omega)
  · rintro hrows env req rfl rfl m hm
    obtain ⟨row, hrow, huser, hopen, hfrom, huntil⟩ := mem_recall hm
    obtain ⟨hbegun, hend⟩ := hrows row hrow huser hopen
    rw [hfrom, huntil]
    refine ⟨hbegun, ?_⟩
    intro t ht
    have hle := notEnded_iff.mp hopen t ht
    have hne : t ≠ req.asOf := by
      rintro rfl
      exact hend ht
    omega

/-- A memory that begins after the instant, and one that ends at it. -/
def snapshotStore : RecallStore where
  memories := [{ Reranking.note 0 with validFrom := 5 }, { Reranking.note 1 with validUntil := some 3 }]
  entityEdges := []
  ids_nodup := by simp [Reranking.note]

theorem recall_returns_others :
    (¬ ∀ m ∈ recallMemories (semanticEnv ℚ 0) snapshotStore (semanticRequest "ann" 3),
      ValidAt 3 m.validFrom m.validUntil) ∧
    ¬ ∀ m ∈ recallMemories (semanticEnv ℚ 1) snapshotStore (semanticRequest "ann" 3),
      ValidAt 3 m.validFrom m.validUntil := by
  constructor
  · intro hvalid
    have hrow : { Reranking.note 0 with validFrom := 5 } ∈ snapshotStore.memories := List.mem_cons_self
    have hopen : notEnded 3 none = true := rfl
    obtain ⟨m, hm, hfrom, -⟩ := recall_semantic (F := ℚ) hrow hopen
    have hbegun := (hvalid m hm).1
    rw [hfrom] at hbegun
    exact absurd hbegun (by decide)
  · intro hvalid
    have hrow : { Reranking.note 1 with validUntil := some 3 } ∈ snapshotStore.memories :=
      List.mem_cons_of_mem _ List.mem_cons_self
    have hopen : notEnded 3 (some 3) = true := rfl
    obtain ⟨m, hm, -, huntil⟩ := recall_semantic (F := ℚ) hrow hopen
    have hend := (hvalid m hm).2 3 huntil
    omega

end Lumogis
