import Lumogis.AuditTaxonomy

/-!
# AuditQueries

The texts of the audit queries. A condition is a valid part of a query unless it has the literal pattern of
the routines, whose percent sign is not doubled; one such condition makes every query with it invalid, and
nothing else does (`queries_valid_iff`).
-/

namespace Lumogis.AuditTaxonomy

/-! ## Texts with placeholders -/

theorem placeholders_cons {c : Char} (hc : c ≠ '%') (rest : List Char) :
    placeholders (c :: rest) = placeholders rest := by
  rw [placeholders.eq_def]
  split
  · contradiction
  · rename_i heq
    exact absurd (List.cons.inj heq).1 hc
  · rename_i heq
    exact absurd (List.cons.inj heq).1 hc
  · rename_i heq
    exact absurd (List.cons.inj heq).1 hc
  · rename_i heq
    rw [(List.cons.inj heq).2]

theorem placeholders_append {a : List Char} {m : Nat} (h : placeholders a = some m) (b : List Char) :
    placeholders (a ++ b) = (placeholders b).map (m + ·) := by
  induction a using placeholders.induct generalizing m with
  | case1 =>
    cases h
    simp
  | case2 rest ih =>
    simp only [placeholders, Option.map_eq_some_iff] at h
    obtain ⟨n, hn, rfl⟩ := h
    have hrest := ih hn
    simp only [List.cons_append, placeholders, hrest, Option.map_map]
    congr 1
    funext k
    simp only [Function.comp_apply]
    omega
  | case3 rest ih => simpa [placeholders] using ih h
  | case4 rest hs hp => simp [placeholders] at h
  | case5 c rest hs hp hc ih =>
    have hne : c ≠ '%' := fun hpercent => hc hpercent
    rw [placeholders_cons hne] at h
    rw [List.cons_append, placeholders_cons hne]
    exact ih h

/-- A literal percent sign before anything but an `s` or another one spoils a text, whatever comes after it. -/
theorem placeholders_spoiled {a : List Char} {m : Nat} (h : placeholders a = some m) {c : Char} (hs : c ≠ 's')
    (hp : c ≠ '%') (b : List Char) : placeholders (a ++ '%' :: c :: b) = none := by
  have hnone : placeholders ('%' :: c :: b) = none := by
    rw [placeholders]
    · intro rest hrest
      exact hs (List.cons.inj hrest).1
    · intro rest hrest
      exact hp (List.cons.inj hrest).1
  rw [placeholders_append h, hnone, Option.map_none]

theorem placeholderList_valid (n : Nat) : placeholders (placeholderList n) = some n := by
  induction n using placeholderList.induct with
  | case1 => rfl
  | case2 => rfl
  | case3 n ih =>
    have hone : placeholders "%s, ".toList = some 1 := by decide
    rw [placeholderList, placeholders_append hone, ih]
    exact congrArg some (Nat.add_comm 1 (n + 1))

/-- Has the literal pattern. -/
def AuditCondition.IsLiteral : AuditCondition → Prop
  | .routine => True
  | .notRoutine => True
  | _ => False

theorem placeholders_in {before : List Char} (h : placeholders before = some 0) (n : Nat) :
    placeholders (before ++ placeholderList n ++ [')']) = some n := by
  have hlist : placeholders (before ++ placeholderList n) = some n := by
    rw [placeholders_append h, placeholderList_valid]
    exact congrArg some (Nat.zero_add n)
  rw [placeholders_append hlist]
  rfl

theorem text_valid {c : AuditCondition} (h : ¬ c.IsLiteral) : placeholders c.text = some c.params.length := by
  cases c with
  | routine => exact absurd trivial h
  | notRoutine => exact absurd trivial h
  | actionIn names =>
    rw [AuditCondition.params, List.length_map]
    exact placeholders_in (by decide) names.length
  | actionNotIn names =>
    rw [AuditCondition.params, List.length_map]
    exact placeholders_in (by decide) names.length
  | userIs _ => rfl
  | connectorIs _ => rfl
  | connectorIsNot _ => rfl
  | actionLike _ => rfl
  | actionNotLike _ => rfl
  | executedFrom _ => rfl
  | executedTo _ => rfl

theorem text_literal {c : AuditCondition} (h : c.IsLiteral) :
    ∃ a b, placeholders a = some 0 ∧ c.text = a ++ '%' :: '\'' :: b := by
  cases c with
  | routine => exact ⟨"action_name LIKE 'routine:".toList, " ESCAPE '\\'".toList, by decide, by decide⟩
  | notRoutine => exact ⟨"action_name NOT LIKE 'routine:".toList, " ESCAPE '\\'".toList, by decide, by decide⟩
  | _ => exact h.elim

theorem joinAnd_valid {conditions : List AuditCondition} (h : ∀ c ∈ conditions, ¬ c.IsLiteral) :
    placeholders (joinAnd (conditions.map AuditCondition.text)) = some (conditions.flatMap AuditCondition.params).length := by
  induction conditions with
  | nil => rfl
  | cons c rest ih =>
    have hc : placeholders c.text = some c.params.length := text_valid (h c List.mem_cons_self)
    have hrest := ih fun c' hc' => h c' (List.mem_cons_of_mem c hc')
    rw [List.flatMap_cons, List.length_append]
    cases rest with
    | nil =>
      show placeholders c.text = _
      simpa using hc
    | cons d rest =>
      have hand : placeholders (c.text ++ " AND ".toList) = some c.params.length := by
        rw [placeholders_append hc, show placeholders " AND ".toList = some 0 by decide]
        rfl
      show placeholders (c.text ++ " AND ".toList ++ joinAnd ((d :: rest).map AuditCondition.text)) = _
      rw [placeholders_append hand, hrest]
      rfl

theorem joinAnd_spoiled {conditions : List AuditCondition} (h : ∃ c ∈ conditions, c.IsLiteral) :
    ∃ a b m, placeholders a = some m ∧ joinAnd (conditions.map AuditCondition.text) = a ++ '%' :: '\'' :: b := by
  induction conditions with
  | nil =>
    obtain ⟨c, hc, -⟩ := h
    cases hc
  | cons c rest ih =>
    have hjoin : ∃ tail, joinAnd ((c :: rest).map AuditCondition.text) = c.text ++ tail ∧
        (rest ≠ [] → tail = " AND ".toList ++ joinAnd (rest.map AuditCondition.text)) := by
      cases rest with
      | nil => exact ⟨[], (List.append_nil _).symm, fun hne => absurd rfl hne⟩
      | cons d rest => exact ⟨_, List.append_assoc _ _ _, fun _ => rfl⟩
    obtain ⟨tail, htext, htail⟩ := hjoin
    by_cases hliteral : c.IsLiteral
    · obtain ⟨a, b, ha, hb⟩ := text_literal hliteral
      exact ⟨a, b ++ tail, 0, ha, by rw [htext, hb, List.append_assoc]; rfl⟩
    · obtain ⟨d, hd, hdl⟩ := h
      have hdrest : d ∈ rest := by
        rcases List.mem_cons.mp hd with rfl | hd
        · exact absurd hdl hliteral
        · exact hd
      obtain ⟨a, b, m, ha, hb⟩ := ih ⟨d, hdrest, hdl⟩
      have hand : placeholders (c.text ++ " AND ".toList) = some c.params.length := by
        rw [placeholders_append (text_valid hliteral), show placeholders " AND ".toList = some 0 by decide]
        rfl
      refine ⟨c.text ++ " AND ".toList ++ a, b, c.params.length + m, ?_, ?_⟩
      · rw [placeholders_append hand, ha]
        rfl
      · rw [htext, htail (List.ne_nil_of_mem hdrest), hb]
        simp only [List.append_assoc]

/-! ## The query of an event type -/

theorem auditFilterConditions_of {filters : AuditFilters} {eventType : List Char} {predicate : AuditFilterPredicate}
    (he : filters.eventType = some eventType) (h : actionNamesForEventType eventType = some predicate) :
    auditFilterConditions filters = filterConditions filters (applyPredicateToSql predicate) := by
  have hne : eventType.isEmpty = false := by
    cases eventType with
    | nil => cases h
    | cons c rest => rfl
  simp [auditFilterConditions, given, he, hne, h]

theorem literal_filterConditions (filters : AuditFilters) (l : List AuditCondition) :
    (∃ c ∈ filterConditions filters l, c.IsLiteral) ↔ ∃ c ∈ l, c.IsLiteral := by
  constructor
  · rintro ⟨c, hc, hliteral⟩
    simp only [filterConditions, List.mem_append, List.mem_map, List.mem_singleton] at hc
    rcases hc with ((((rfl | ⟨_, _, rfl⟩) | ⟨_, _, rfl⟩) | hc) | ⟨_, _, rfl⟩) | ⟨_, _, rfl⟩
    · exact hliteral.elim
    · exact hliteral.elim
    · exact hliteral.elim
    · exact ⟨c, hc, hliteral⟩
    · exact hliteral.elim
    · exact hliteral.elim
  · rintro ⟨c, hc, hliteral⟩
    exact ⟨c, by simp [filterConditions, hc], hliteral⟩

theorem literal_applyPredicate (predicate : AuditFilterPredicate) :
    (∃ c ∈ applyPredicateToSql predicate, c.IsLiteral) ↔
      predicate.routinePrefixOnly = true ∨ predicate.excludeMapped = true := by
  simp only [applyPredicateToSql]
  cases hroutine : predicate.routinePrefixOnly with
  | true => simp [AuditCondition.IsLiteral]
  | false =>
    cases hmapped : predicate.excludeMapped with
    | true =>
      simp only [Bool.false_eq_true, if_false, if_true, or_true, iff_true]
      exact ⟨.notRoutine, by simp, trivial⟩
    | false =>
      simp only [Bool.false_eq_true, if_false, List.append_nil, or_self, iff_false]
      rintro ⟨c, hc, hliteral⟩
      rcases List.mem_append.mp hc with hc | hc
      · split at hc
        · cases hc
        · rw [List.mem_singleton.mp hc] at hliteral
          exact hliteral
      · obtain ⟨connector, -, rfl⟩ := List.mem_map.mp hc
        exact hliteral

theorem queries_valid_iff {eventType : List Char} {predicate : AuditFilterPredicate}
    (h : actionNamesForEventType eventType = some predicate) :
    (∀ filters limit offset q, filters.eventType = some eventType → getAuditQuery filters limit offset = some q →
      q.IsValid) ↔ ¬ (predicate.routinePrefixOnly = true ∨ predicate.excludeMapped = true) := by
  rw [← literal_applyPredicate]
  have hquery : ∀ filters limit offset, filters.eventType = some eventType →
      ∃ q, getAuditQuery filters limit offset = some q ∧
        (q.IsValid ↔ ¬ ∃ c ∈ applyPredicateToSql predicate, c.IsLiteral) := by
    intro filters limit offset he
    have hconditions := auditFilterConditions_of he h
    have hsome : (filterConditions filters (applyPredicateToSql predicate)).isEmpty = false := rfl
    refine ⟨_, by rw [getAuditQuery, hconditions, hsome, Bool.and_false]; rfl, ?_⟩
    rw [← literal_filterConditions filters]
    generalize filterConditions filters (applyPredicateToSql predicate) = conditions
    have hhead : placeholders ("SELECT id, action_name, connector, mode, input_summary, result_summary, " ++
        "reverse_token, reverse_action, executed_at, reversed_at, scope FROM audit_log WHERE ").toList = some 0 := by
      decide +kernel
    constructor
    · rintro hvalid hliteral
      obtain ⟨a, b, m, ha, htext⟩ := joinAnd_spoiled hliteral
      simp only [SqlQuery.IsValid, htext] at hvalid
      have hbefore := placeholders_append hhead a
      rw [ha] at hbefore
      have hnone := placeholders_spoiled hbefore (c := '\'') (by decide) (by decide)
        (b ++ " ORDER BY executed_at DESC LIMIT %s OFFSET %s".toList)
      simp only [List.append_assoc, List.cons_append] at hvalid hnone
      rw [hnone] at hvalid
      cases hvalid
    · intro hnone
      have hall : ∀ c ∈ conditions, ¬ c.IsLiteral := fun c hc hliteral => hnone ⟨c, hc, hliteral⟩
      have hbefore := placeholders_append hhead (joinAnd (conditions.map AuditCondition.text))
      rw [joinAnd_valid hall] at hbefore
      rw [SqlQuery.IsValid, placeholders_append hbefore,
        show placeholders " ORDER BY executed_at DESC LIMIT %s OFFSET %s".toList = some 2 by decide +kernel]
      simp
  constructor
  · intro hvalid
    obtain ⟨q, hq, hiff⟩ := hquery { userId := [], eventType := some eventType } 0 0 rfl
    exact hiff.mp (hvalid _ _ _ q rfl hq)
  · intro hnone filters limit offset q he hq
    obtain ⟨q', hq', hiff⟩ := hquery filters limit offset he
    obtain rfl := Option.some.inj (hq.symm.trans hq')
    exact hiff.mpr hnone

end Lumogis.AuditTaxonomy
