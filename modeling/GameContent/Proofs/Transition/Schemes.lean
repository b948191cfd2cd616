import GameContent.Proofs.Transition.Normalization
import GameContent.Proofs.Transition.Renaming

/-!
# `Proofs.Transition.Schemes` — the two schemes of ids differ by names only

Expanding a graph under one scheme or the other gives the same waiting states under other ids. The
ids under the two schemes stand side by side in `Graph.waitingNames`, and `Graph.translate` reads the
one off the other. It is undone by the renaming the other way round (`translate_translate`), and it
turns the graph expanded under the one scheme into that expanded under the other (`renamed_expand`).
So what the graphs are compiled to differs by names only (`expand_schemes_agree`).
-/

namespace GameContent
open Expansion

/-- In a list of pairs whose first parts are distinct, each of these leads to its second part. -/
theorem lookup_eq_some_of_mem {α β : Type} [BEq α] [LawfulBEq α] {l : List (α × β)} {a : α} {b : β}
    (hnodup : (l.map Prod.fst).Nodup) (h : (a, b) ∈ l) : l.lookup a = some b := by
  obtain ⟨before, after, rfl⟩ := List.append_of_mem h
  refine List.lookup_eq_some_iff.2 ⟨before, after, rfl, fun p hp => ?_⟩
  rw [List.map_append, List.map_cons, List.nodup_append] at hnodup
  have hne := hnodup.2.2 p.1 (List.mem_map_of_mem hp) a List.mem_cons_self
  simpa using fun he : a = p.1 => hne he.symm

namespace Graph

/-- The ids of the waiting states under some scheme. -/
def waitingIds (scheme : IdScheme) (g : Graph) : List String :=
  (delayed g).flatMap (Delayed.waitingIds scheme)

/-- The ids of the waiting states under one scheme, each with that under another. -/
def waitingNames (a b : IdScheme) (g : Graph) : List (String × String) :=
  (delayed g).flatMap fun d => (List.range (d.days - 1)).map fun k =>
    (a.idAt d.edge.head (k + 1), b.idAt d.edge.head (k + 1))

/-- The id under the second scheme of the state that has the given id under the first one. Only the
    ids of waiting states differ. -/
def translate (a b : IdScheme) (g : Graph) (id : String) : String :=
  ((g.waitingNames a b).lookup id).getD id

variable {a b scheme : IdScheme} {g ga gb : Graph} {id : String} {d : Delayed}

theorem map_fst_waitingNames (a b : IdScheme) (g : Graph) :
    (g.waitingNames a b).map Prod.fst = g.waitingIds a := by
  unfold waitingNames waitingIds
  rw [List.map_flatMap]
  refine List.flatMap_congr fun d _ => ?_
  rw [List.map_map]
  rfl

/-! ## What is renamed -/

/-- Other ids than those of waiting states stay as they are. -/
theorem translate_of_not_mem (h : id ∉ g.waitingIds a) : g.translate a b id = id := by
  have hnone : (g.waitingNames a b).lookup id = none := by
    rw [List.lookup_eq_none_iff]
    intro p hp
    have hmem : p.1 ∈ g.waitingIds a := by
      rw [← map_fst_waitingNames a b]
      exact List.mem_map_of_mem hp
    simpa using fun he : id = p.1 => h (he ▸ hmem)
  unfold translate
  rw [hnone, Option.getD_none]

theorem Expandable.not_mem_waitingIds (h : g.Expandable a) (hid : id ∈ g.ids) :
    id ∉ g.waitingIds a := by
  intro hm
  obtain ⟨d, hd, hw⟩ := List.mem_flatMap.1 hm
  exact h.not_mem_ids hd hw hid

/-- The states of the graph keep their ids. -/
theorem translate_of_mem_ids (h : g.Expandable a) (hid : id ∈ g.ids) : g.translate a b id = id :=
  translate_of_not_mem (h.not_mem_waitingIds hid)

/-- The states of a chain get the ids that they have under the other scheme. -/
theorem translate_idAt (h : g.Expandable a) (hd : d ∈ delayed g) {k : Nat} (hk : k < d.days) :
    g.translate a b (a.idAt d.edge.head k) = b.idAt d.edge.head k := by
  cases k with
  | zero => exact translate_of_mem_ids h (head_mem_ids_of_mem_delayed hd)
  | succ k =>
    have hnodup : ((g.waitingNames a b).map Prod.fst).Nodup := by
      rw [map_fst_waitingNames]
      exact h.waitingIds_nodup
    have hmem : (a.idAt d.edge.head (k + 1), b.idAt d.edge.head (k + 1)) ∈ g.waitingNames a b := by
      refine List.mem_flatMap.2 ⟨d, hd, List.mem_map.2 ⟨k, ?_, rfl⟩⟩
      rw [List.mem_range]
      omega
    unfold translate
    rw [lookup_eq_some_of_mem hnodup hmem, Option.getD_some]

/-- Every state of an expanded graph is one of the graph or of a chain. -/
theorem mem_ids_expand_iff (h : g.expand scheme = .ok ga) :
    id ∈ ga.ids ↔ id ∈ g.ids
      ∨ ∃ d ∈ delayed g, ∃ k < d.days - 1, scheme.idAt d.edge.head (k + 1) = id := by
  rw [ids_expand h, List.mem_append, List.mem_flatMap]
  simp only [Delayed.mem_waitingIds]

/-- **There and back.** Renaming a state from one scheme to the other and back gives its id. -/
theorem translate_translate (ha : g.expand a = .ok ga) (hb : g.Expandable b) (hid : id ∈ ga.ids) :
    g.translate b a (g.translate a b id) = id := by
  have hga := (expand_eq_ok_iff.1 ha).1
  rcases (mem_ids_expand_iff ha).1 hid with hmem | ⟨d, hd, k, hk, rfl⟩
  · rw [translate_of_mem_ids hga hmem, translate_of_mem_ids hb hmem]
  · rw [translate_idAt hga hd (by omega), translate_idAt hb hd (by omega)]

theorem translate_mem_ids (ha : g.expand a = .ok ga) (hb : g.expand b = .ok gb) (hid : id ∈ ga.ids) :
    g.translate a b id ∈ gb.ids := by
  have hga := (expand_eq_ok_iff.1 ha).1
  rw [mem_ids_expand_iff hb]
  rcases (mem_ids_expand_iff ha).1 hid with hmem | ⟨d, hd, k, hk, rfl⟩
  · rw [translate_of_mem_ids hga hmem]
    exact .inl hmem
  · rw [translate_idAt hga hd (by omega)]
    exact .inr ⟨d, hd, k, hk, rfl⟩

/-- An id that no waiting state has is the name of itself only. -/
theorem translate_eq_iff (ha : g.expand a = .ok ga) {sentinel : String}
    (hsentinel : ∀ scheme, sentinel ∉ g.waitingIds scheme) (hid : id ∈ ga.ids) :
    g.translate a b id = sentinel ↔ id = sentinel := by
  have hga := (expand_eq_ok_iff.1 ha).1
  rcases (mem_ids_expand_iff ha).1 hid with hmem | ⟨d, hd, k, hk, rfl⟩
  · rw [translate_of_mem_ids hga hmem]
  · have hwaiting : ∀ scheme : IdScheme, scheme.idAt d.edge.head (k + 1) ≠ sentinel := by
      intro scheme he
      apply hsentinel scheme
      exact List.mem_flatMap.2 ⟨d, hd, Delayed.mem_waitingIds.2 ⟨k, hk, he⟩⟩
    rw [translate_idAt hga hd (by omega)]
    exact iff_of_false (hwaiting b) (hwaiting a)

/-- **The states** of the two expanded graphs correspond to each other. -/
theorem bijOn_translate (ha : g.expand a = .ok ga) (hb : g.expand b = .ok gb) :
    Set.BijOn (g.translate a b) {id | id ∈ ga.ids} {id | id ∈ gb.ids} := by
  have hga := (expand_eq_ok_iff.1 ha).1
  have hgb := (expand_eq_ok_iff.1 hb).1
  have hinverse : Set.InvOn (g.translate b a) (g.translate a b) {id | id ∈ ga.ids}
      {id | id ∈ gb.ids} :=
    ⟨fun _ hid => translate_translate ha hgb hid, fun _ hid => translate_translate hb hga hid⟩
  apply hinverse.bijOn
  · intro id hid
    exact translate_mem_ids ha hb hid
  · intro id hid
    exact translate_mem_ids hb ha hid

end Graph

/-! ## Expanded graphs -/

variable {a b : IdScheme} {g ga gb : Graph} {d : Delayed}

theorem map_translate_waitingIds (h : g.Expandable a) (hd : d ∈ delayed g) :
    (d.waitingIds a).map (g.translate a b) = d.waitingIds b := by
  unfold Delayed.waitingIds
  rw [List.map_map]
  refine List.map_congr_left fun k hk => ?_
  rw [List.mem_range] at hk
  exact Graph.translate_idAt h hd (by omega)

/-- The transitions into and out of a waiting state, renamed. -/
theorem map_rename_movesAt (h : g.Expandable a) (hd : d ∈ delayed g) {k : Nat}
    (hk : k < d.days - 1) :
    (d.movesAt a k).map (Move.rename (g.translate a b)) = d.movesAt b k := by
  obtain ⟨he, hn⟩ := mem_delayed_iff.1 hd
  have hprevious : g.translate a b (a.idAt d.edge.head k) = b.idAt d.edge.head k :=
    Graph.translate_idAt h hd (by omega)
  have hid : g.translate a b (a.idAt d.edge.head (k + 1)) = b.idAt d.edge.head (k + 1) :=
    Graph.translate_idAt h hd (by omega)
  have hday : Move.rename (g.translate a b)
        ⟨a.idAt d.edge.head k, a.idAt d.edge.head (k + 1), .on .newDay⟩
      = ⟨b.idAt d.edge.head k, b.idAt d.edge.head (k + 1), .on .newDay⟩ := by
    unfold Move.rename
    rw [hprevious, hid]
  unfold Delayed.movesAt
  rw [List.map_cons, hday, List.map_map]
  refine congrArg _ (List.map_congr_left fun r hr => ?_)
  have htarget : g.translate a b r.target = r.target :=
    Graph.translate_of_mem_ids h (h.targets _ he _ hn r hr)
  show Move.mk (g.translate a b (a.idAt d.edge.head (k + 1))) (g.translate a b r.target) _ = _
  rw [hid, htarget]

/-- A chain under one scheme is the renamed chain under the other. -/
theorem map_rename_chain (h : g.Expandable a) (hd : d ∈ delayed g) :
    (d.chain a).map (Move.rename (g.translate a b)) = d.chain b := by
  have hdays := one_lt_days_of_mem_delayed hd
  have htail : g.translate a b d.edge.tail = d.edge.tail :=
    Graph.translate_of_mem_ids h (Graph.tail_mem_ids (mem_delayed_iff.1 hd).1)
  have hlast : Move.rename (g.translate a b)
        ⟨a.idAt d.edge.head (d.days - 1), d.edge.tail, arrival d.edge.transition⟩
      = ⟨b.idAt d.edge.head (d.days - 1), d.edge.tail, arrival d.edge.transition⟩ := by
    unfold Move.rename
    rw [Graph.translate_idAt h hd (by omega), htail]
  unfold Delayed.chain
  rw [List.map_append, List.map_flatMap, List.map_singleton, hlast]
  refine congrArg (· ++ _) (List.flatMap_congr fun k hk => ?_)
  exact map_rename_movesAt h hd (List.mem_range.1 hk)

/-- The transitions of the graph itself keep their ends. -/
theorem map_rename_toMove (h : g.Expandable a) {es : List Edge} (hes : ∀ e ∈ es, e ∈ g.edges) :
    (es.map Edge.toMove).map (Move.rename (g.translate a b)) = es.map Edge.toMove := by
  rw [List.map_map]
  refine List.map_congr_left fun e he => ?_
  show Move.mk (g.translate a b e.head) (g.translate a b e.tail) e.transition = e.toMove
  rw [Graph.translate_of_mem_ids h (Graph.head_mem_ids (hes e he)),
    Graph.translate_of_mem_ids h (Graph.tail_mem_ids (hes e he))]
  rfl

/-- A state of the graph gets the same properties under either scheme. -/
theorem properties?_expand_eq (ha : g.expand a = .ok ga) (hb : g.expand b = .ok gb) {id : String}
    (hid : id ∈ g.ids) : ga.properties? id = gb.properties? id := by
  by_cases hhead : ∃ d ∈ delayed g, id = d.edge.head
  · obtain ⟨d, hd, rfl⟩ := hhead
    rw [properties?_expand_head ha hd, properties?_expand_head hb hd]
  · have hne : ∀ d ∈ delayed g, id ≠ d.edge.head := fun d hd he => hhead ⟨d, hd, he⟩
    rw [properties?_expand_of_ne ha hid hne, properties?_expand_of_ne hb hid hne]

theorem entries_describe_waitingProperties (text : Option String) (previous : String) :
    (describe text (waitingProperties previous)).entries
      = ("cloneFrom", .str previous) :: ("special", .texts ["dontCloneReactions"])
        :: ("itemCategory", .str "hide")
        :: text.elim [] fun text => [("description", .str text)] := by
  have hentries : (waitingProperties previous).entries
      = [("cloneFrom", .str previous), ("special", .texts ["dontCloneReactions"]),
        ("itemCategory", .str "hide")] :=
    Properties.entries_ofList (show ["cloneFrom", "special", "itemCategory"].Nodup by decide)
  cases text with
  | none => exact hentries
  | some text =>
    show Properties.upsertEntry "description" (fun _ => .str text)
      (waitingProperties previous).entries = _
    rw [hentries]
    rfl

/-- The properties of a waiting state name the state before it as what they clone. -/
theorem modify_describe_waitingProperties (name : String → String) (text : Option String)
    (previous : String) :
    (describe text (waitingProperties previous)).modify "cloneFrom" (Value.rename name)
      = describe text (waitingProperties (name previous)) := by
  refine Properties.ext ?_
  show (describe text (waitingProperties previous)).entries.map _ = _
  rw [entries_describe_waitingProperties, entries_describe_waitingProperties]
  cases text <;> rfl

/-- A waiting state has the same properties under either scheme, but it clones the state before it
    under the name that this has. -/
theorem properties?_expand_translate (ha : g.expand a = .ok ga) (hb : g.expand b = .ok gb)
    (hd : d ∈ delayed g) {k : Nat} (hk : k < d.days - 1) :
    gb.properties? (b.idAt d.edge.head (k + 1))
      = (ga.properties? (a.idAt d.edge.head (k + 1))).map fun p =>
        p.modify "cloneFrom" (Value.rename (g.translate a b)) := by
  have hprevious : g.translate a b (a.idAt d.edge.head k) = b.idAt d.edge.head k :=
    Graph.translate_idAt (expand_eq_ok_iff.1 ha).1 hd (by omega)
  rw [properties?_expand_waiting ha hd hk, properties?_expand_waiting hb hd hk,
    properties?_expand_eq ha hb (head_mem_ids_of_mem_delayed hd), Option.map_some]
  unfold Delayed.stateAt
  rw [modify_describe_waitingProperties, hprevious]

/-- **The expanded graphs** under the two schemes are the same but for the names of states. -/
theorem renamed_expand (ha : g.expand a = .ok ga) (hb : g.expand b = .ok gb) :
    ga.Renamed (g.translate a b) (g.waitingIds a) gb := by
  have hga := (expand_eq_ok_iff.1 ha).1
  have hkept : ∀ id ∈ g.ids, g.translate a b id = id :=
    fun id hid => Graph.translate_of_mem_ids hga hid
  refine ⟨(Graph.bijOn_translate ha hb).injOn, ?_, ?_, ?_⟩
  · have hids : g.ids.map (g.translate a b) = g.ids :=
      (List.map_congr_left hkept).trans (List.map_id' g.ids)
    rw [ids_expand ha, ids_expand hb, List.map_append, hids, List.map_flatMap]
    exact congrArg _ (List.flatMap_congr fun d hd => (map_translate_waitingIds hga hd).symm)
  · obtain ⟨added, hedges, hadded⟩ := exists_edges_expand ha
    obtain ⟨added', hedges', hadded'⟩ := exists_edges_expand hb
    rw [hedges, hedges', List.map_append, List.map_append, List.map_append,
      map_rename_toMove hga fun e he => (List.mem_filter.1 he).1, hadded, hadded',
      List.map_flatMap]
    exact congrArg _ (List.flatMap_congr fun d hd => (map_rename_chain hga hd).symm)
  · intro id hid
    -- Only waiting states are clones, and none of them is a state of the graph.
    rcases (Graph.mem_ids_expand_iff ha).1 hid with hmem | ⟨d, hd, k, hk, rfl⟩
    · simp only [if_neg (hga.not_mem_waitingIds hmem)]
      rw [hkept id hmem, Option.map_id', properties?_expand_eq ha hb hmem]
    · have hclone : a.idAt d.edge.head (k + 1) ∈ g.waitingIds a :=
        List.mem_flatMap.2 ⟨d, hd, Delayed.mem_waitingIds.2 ⟨k, hk, rfl⟩⟩
      simp only [if_pos hclone]
      rw [Graph.translate_idAt hga hd (by omega)]
      exact properties?_expand_translate ha hb hd hk

/-! ## Compiled graphs -/

/-- The items of a graph have the ids of its states. -/
theorem ids_compileRecords_subset {sentinel : String} {rs : List Record}
    (h : g.compileRecords sentinel = .ok rs) : Record.ids rs ⊆ {id | id ∈ g.ids} := by
  obtain ⟨-, rfl⟩ := Graph.compileRecords_eq_ok_iff.1 h
  intro id hid
  obtain ⟨_, hr, heq⟩ := List.mem_map.1 hid
  obtain ⟨k, hk, rfl⟩ := List.mem_map.1 hr
  rw [Graph.id?_itemOf] at heq
  cases heq
  exact (List.mem_filter.1 hk).1

/-- **The two schemes differ by names only.** If a graph can be expanded under both and the sentinel
    is the id of no waiting state, then both results compile, and the items under the one scheme are
    those under the other, in order and reaction by reaction, with the waiting states renamed. The
    renaming matches the states and the items of the two results one to one, keeps the states of the
    graph, and gives the state of day `k` of a head the id of the head with `k` underscores. -/
theorem expand_schemes_agree {gd gs : Graph} {sentinel : String}
    (hd : g.expand .dayIndexed = .ok gd) (hs : g.expand .suffix = .ok gs)
    (hsentinel : ∀ scheme, sentinel ∉ g.waitingIds scheme) :
    ∃ rd rs, gd.compileRecords sentinel = .ok rd ∧ gs.compileRecords sentinel = .ok rs
      ∧ rs = rd.map (Record.rename (g.translate .dayIndexed .suffix) (g.waitingIds .dayIndexed))
      ∧ Set.BijOn (g.translate .dayIndexed .suffix) (Record.ids rd) (Record.ids rs)
      ∧ Set.BijOn (g.translate .dayIndexed .suffix) {id | id ∈ gd.ids} {id | id ∈ gs.ids}
      ∧ (∀ id ∈ g.ids, g.translate .dayIndexed .suffix id = id)
      ∧ ∀ e ∈ g.edges, ∀ n, e.transition.delay = some n → ∀ k, 0 < k → k < n →
        g.translate .dayIndexed .suffix (e.head ++ "__day" ++ toString k)
          = e.head ++ String.ofList (List.replicate k '_') := by
  have hg := (expand_eq_ok_iff.1 hd).1
  have hrenamed := renamed_expand hd hs
  have hnames : ∀ id ∈ gd.ids, g.translate .dayIndexed .suffix id = sentinel ↔ id = sentinel :=
    fun id hid => Graph.translate_eq_iff hd hsentinel hid
  obtain ⟨rd, hrd⟩ := Graph.exists_compileRecords_of_isExpanded (isExpanded_expand hd) sentinel
  refine ⟨rd, _, hrd, hrenamed.compileRecords hnames hrd, rfl, ?_, Graph.bijOn_translate hd hs,
    fun id hid => Graph.translate_of_mem_ids hg hid, ?_⟩
  · rw [Record.ids_map_rename]
    exact (hrenamed.injOn.mono (ids_compileRecords_subset hrd)).bijOn_image
  · intro e he n hn k hpos hlt
    obtain ⟨k, rfl⟩ := Nat.exists_eq_succ_of_ne_zero (Nat.ne_of_gt hpos)
    have hname : g.translate .dayIndexed .suffix (IdScheme.dayIndexed.idAt e.head (k + 1))
        = IdScheme.suffix.idAt e.head (k + 1) :=
      Graph.translate_idAt hg (mem_delayed_iff.2 ⟨he, hn⟩ : (⟨e, n⟩ : Delayed) ∈ delayed g) hlt
    refine hname.trans (String.toList_inj.1 ?_)
    rw [IdScheme.toList_idAt_suffix, String.toList_append, String.toList_ofList]

/-- The second day of a seed, under one name and the other. -/
theorem expand_schemes_agree_seedGraph :
    ∃ gd gs rd rs, seedGraph.expand .dayIndexed = .ok gd ∧ seedGraph.expand .suffix = .ok gs
      ∧ gd.compileRecords "X" = .ok rd ∧ gs.compileRecords "X" = .ok rs
      ∧ rs = rd.map (Record.rename (seedGraph.translate .dayIndexed .suffix)
        ["seed__day1", "seed__day2"])
      ∧ seedGraph.translate .dayIndexed .suffix "seed__day2" = "seed__" := by
  have hokd : (seedGraph.expand .dayIndexed).isOk = true := by decide +kernel
  have hoks : (seedGraph.expand .suffix).isOk = true := by decide +kernel
  obtain ⟨gd, hd⟩ := exists_eq_ok_of_isOk hokd
  obtain ⟨gs, hs⟩ := exists_eq_ok_of_isOk hoks
  have hsentinel : ∀ scheme, "X" ∉ seedGraph.waitingIds scheme := by
    intro scheme
    cases scheme <;> decide +kernel
  have hclones : seedGraph.waitingIds .dayIndexed = ["seed__day1", "seed__day2"] := by
    decide +kernel
  have he : growing ∈ seedGraph.edges := List.mem_cons_self
  obtain ⟨rd, rs, hrd, hrs, hrecords, -, -, -, hnames⟩ := expand_schemes_agree hd hs hsentinel
  exact ⟨gd, gs, rd, rs, hd, hs, hrd, hrs, hclones ▸ hrecords,
    hnames growing he 3 rfl 2 (by decide) (by decide)⟩

end GameContent
