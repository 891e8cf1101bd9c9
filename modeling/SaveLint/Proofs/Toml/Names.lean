import SaveLint.Toml.Document

/-!
# Names in a document

A document says each name of a table once. An assignment to a name that is there already is refused,
and so are a second header of a table and a dotted key into a closed one; everything else that a
line does puts a node in the place of another one with the same name. So in the data of a document
no object has two members of one name, at any depth (`namesOnce_of_read?`).
-/

namespace SaveLint

/-- No object in the value has two members of the same name. -/
inductive Json.NamesOnce : Json → Prop where
  | null : NamesOnce .null
  | bool (b : Bool) : NamesOnce (.bool b)
  | integer (n : Int) : NamesOnce (.integer n)
  | real (literal : String) : NamesOnce (.real literal)
  | string (s : String) : NamesOnce (.string s)
  | array {items : List Json} (h : ∀ v ∈ items, NamesOnce v) : NamesOnce (.array items)
  | object {members : List (String × Json)} (names : (members.map (·.1)).Nodup)
      (h : ∀ m ∈ members, NamesOnce m.2) : NamesOnce (.object members)

namespace Toml

variable {v : Json} {name : String} {es es' : Entries} {cs rest word : List Char}

/-! ### Tables -/

/-- The entries of a table whose data says each name once. -/
structure IsTable (es : Entries) : Prop where
  names : (es.map (·.1)).Nodup
  nodes : ∀ e ∈ es, e.2.toJson.NamesOnce

theorem isTable_nil : IsTable [] := ⟨List.nodup_nil, by simp⟩

theorem entriesToJson_eq_map (es : Entries) :
    entriesToJson es = es.map fun e => (e.1, e.2.toJson) := by
  induction es with
  | nil => rfl
  | cons e es ih => rw [entriesToJson, ih, List.map_cons]

theorem elementsToJson_eq_map (elements : List Entries) :
    elementsToJson elements = elements.map fun es => .object (entriesToJson es) := by
  induction elements with
  | nil => rfl
  | cons es elements ih => rw [elementsToJson, ih, List.map_cons]

theorem isTable_iff : IsTable es ↔ (Json.object (entriesToJson es)).NamesOnce := by
  rw [entriesToJson_eq_map]
  constructor
  · rintro ⟨hnames, hnodes⟩
    refine .object ?_ ?_
    · rwa [List.map_map]
    · intro m hm
      obtain ⟨e, he, rfl⟩ := List.mem_map.mp hm
      exact hnodes e he
  · intro h
    cases h with
    | object hnames h =>
        rw [List.map_map] at hnames
        exact ⟨hnames, fun e he => h _ (List.mem_map_of_mem he)⟩

theorem table_namesOnce {kind : TableKind} :
    (Node.table kind es).toJson.NamesOnce ↔ IsTable es := by
  rw [Node.toJson, isTable_iff]

theorem tables_namesOnce {elements : List Entries} :
    (Node.tables elements).toJson.NamesOnce ↔ ∀ es ∈ elements, IsTable es := by
  rw [Node.toJson, elementsToJson_eq_map]
  constructor
  · intro h es hes
    cases h with
    | array h => exact isTable_iff.mpr (h _ (List.mem_map_of_mem hes))
  · intro h
    refine .array fun v hv => ?_
    obtain ⟨es, hes, rfl⟩ := List.mem_map.mp hv
    exact isTable_iff.mp (h es hes)

theorem IsTable.of_lookup {node : Node} (h : IsTable es) (hnode : es.lookup name = some node) :
    node.toJson.NamesOnce := by
  obtain ⟨before, after, rfl, -⟩ := List.lookup_eq_some_iff.mp hnode
  exact h.nodes (name, node) (by simp)

/-! ### Changes to a table -/

theorem mem_setEntry {node : Node} {e : String × Node} (h : e ∈ setEntry name node es) :
    e = (name, node) ∨ e ∈ es := by
  fun_induction setEntry name node es with
  | case1 => exact .inl (List.mem_singleton.mp h)
  | case2 => exact (List.mem_cons.mp h).imp_right (List.mem_cons_of_mem _)
  | case3 other old rest _ ih =>
      rcases List.mem_cons.mp h with rfl | h
      · exact .inr List.mem_cons_self
      · exact (ih h).imp_right (List.mem_cons_of_mem _)

theorem nodup_setEntry (node : Node) (h : (es.map (·.1)).Nodup) :
    ((setEntry name node es).map (·.1)).Nodup := by
  fun_induction setEntry name node es with
  | case1 => simp
  | case2 => exact h
  | case3 other old rest hother ih =>
      obtain ⟨hfresh, hrest⟩ := List.nodup_cons.mp h
      refine List.nodup_cons.mpr ⟨?_, ih hrest⟩
      intro hmem
      obtain ⟨e, he, hname⟩ := List.mem_map.mp hmem
      rcases mem_setEntry he with rfl | he
      · exact hother hname.symm
      · exact hfresh (List.mem_map.mpr ⟨e, he, hname⟩)

theorem IsTable.setEntry {node : Node} (h : IsTable es) (hnode : node.toJson.NamesOnce) :
    IsTable (setEntry name node es) := by
  refine ⟨nodup_setEntry node h.names, ?_⟩
  intro e he
  rcases mem_setEntry he with rfl | he
  · exact hnode
  · exact h.nodes e he

theorem IsTable.append {node : Node} (h : IsTable es) (hfresh : es.lookup name = none)
    (hnode : node.toJson.NamesOnce) : IsTable (es ++ [(name, node)]) := by
  constructor
  · rw [List.map_append, List.map_singleton, List.nodup_append]
    refine ⟨h.names, by simp, ?_⟩
    rintro other hother _ hname rfl
    obtain rfl := List.mem_singleton.mp hname
    obtain ⟨e, he, heq⟩ := List.mem_map.mp hother
    have hne := List.lookup_eq_none_iff.mp hfresh e he
    simp [heq] at hne
  · intro e he
    rcases List.mem_append.mp he with he | he
    · exact h.nodes e he
    · obtain rfl := List.mem_singleton.mp he
      exact hnode

theorem IsTable.assign? {parts : List String} (h : IsTable es) (hv : v.NamesOnce)
    (hassign : assign? v name parts es = some es') : IsTable es' := by
  fun_induction Toml.assign? v name parts es generalizing es' with
  | case1 => cases hassign
  | case2 es hfresh =>
      cases hassign
      exact h.append hfresh (by rwa [Node.toJson])
  | case3 es part parts hfresh ih =>
      obtain ⟨inner, hinner, rfl⟩ := Option.map_eq_some_iff.mp hassign
      exact h.setEntry (table_namesOnce.mpr (ih isTable_nil hinner))
  | case4 => cases hassign
  | case5 es part parts kind old hold _ ih =>
      obtain ⟨inner, hinner, rfl⟩ := Option.map_eq_some_iff.mp hassign
      have hinnerTable := ih (table_namesOnce.mp (h.of_lookup hold)) hinner
      exact h.setEntry (table_namesOnce.mpr hinnerTable)
  | case6 => cases hassign

theorem isTable_changeLast? {f : Entries → Option Entries} {elements elements' : List Entries}
    (hf : ∀ es es', IsTable es → f es = some es' → IsTable es')
    (h : ∀ es ∈ elements, IsTable es) (hchange : changeLast? f elements = some elements') :
    ∀ es ∈ elements', IsTable es := by
  fun_induction changeLast? f elements generalizing elements' with
  | case1 => cases hchange
  | case2 es =>
      obtain ⟨last, hlast, rfl⟩ := Option.map_eq_some_iff.mp hchange
      exact List.forall_mem_singleton.mpr (hf es last (h es List.mem_cons_self) hlast)
  | case3 es rest _ ih =>
      obtain ⟨changed, hchanged, rfl⟩ := Option.map_eq_some_iff.mp hchange
      obtain ⟨hes, hrest⟩ := List.forall_mem_cons.mp h
      exact List.forall_mem_cons.mpr ⟨hes, ih hrest hchanged⟩

/-- A change somewhere in a table keeps it one, if it does so where it is made. -/
theorem IsTable.change? {f : Entries → Option Entries} {parts : List String}
    (hf : ∀ es es', IsTable es → f es = some es' → IsTable es') (h : IsTable es)
    (hchange : change? f parts es = some es') : IsTable es' := by
  induction parts generalizing es es' with
  | nil => exact hf es es' h hchange
  | cons part parts ih =>
      rw [Toml.change?] at hchange
      split at hchange
      · obtain ⟨inner, hinner, rfl⟩ := Option.map_eq_some_iff.mp hchange
        exact h.setEntry (table_namesOnce.mpr (ih isTable_nil hinner))
      · rename_i kind old hold
        obtain ⟨inner, hinner, rfl⟩ := Option.map_eq_some_iff.mp hchange
        exact h.setEntry (table_namesOnce.mpr (ih (table_namesOnce.mp (h.of_lookup hold)) hinner))
      · rename_i old hold
        obtain ⟨inner, hinner, rfl⟩ := Option.map_eq_some_iff.mp hchange
        have htables := tables_namesOnce.mp (h.of_lookup hold)
        have hchanged := isTable_changeLast? (fun _ _ => ih) htables hinner
        exact h.setEntry (tables_namesOnce.mpr hchanged)
      · cases hchange

theorem IsTable.open? (h : IsTable es) (hopen : open? name es = some es') : IsTable es' := by
  rw [Toml.open?] at hopen
  split at hopen
  · rename_i hfresh
    cases hopen
    exact h.append hfresh (table_namesOnce.mpr isTable_nil)
  · rename_i old hold
    cases hopen
    exact h.setEntry (table_namesOnce.mpr (table_namesOnce.mp (h.of_lookup hold)))
  · cases hopen

theorem IsTable.append? (h : IsTable es) (happend : append? name es = some es') : IsTable es' := by
  rw [Toml.append?] at happend
  split at happend
  · rename_i hfresh
    cases happend
    exact h.append hfresh (tables_namesOnce.mpr (List.forall_mem_singleton.mpr isTable_nil))
  · rename_i old hold
    cases happend
    have htables := tables_namesOnce.mp (h.of_lookup hold)
    refine h.setEntry (tables_namesOnce.mpr fun es hes => ?_)
    rcases List.mem_append.mp hes with hes | hes
    · exact htables es hes
    · rw [List.mem_singleton.mp hes]
      exact isTable_nil
  · cases happend

/-! ### Values -/

theorem namesOnce_of_wholeNumber? {n : Int} (h : wholeNumber? n word = some v) : v.NamesOnce := by
  unfold wholeNumber? at h
  split at h
  · cases h
    exact .integer n
  · split at h <;> cases h
    exact .real _

theorem namesOnce_of_based? {base : Nat} {isDigit : Char → Bool} {digits : List Char}
    (h : based? base isDigit digits word = some v) : v.NamesOnce := by
  obtain ⟨_, -, h⟩ := Option.bind_eq_some_iff.mp h
  exact namesOnce_of_wholeNumber? h

theorem namesOnce_of_unsigned? {negative : Bool} (h : unsigned? negative cs word = some v) :
    v.NamesOnce := by
  unfold unsigned? at h
  split at h
  · cases h
    exact .real _
  · split at h
    · exact namesOnce_of_wholeNumber? h
    · split at h
      · split at h
        · split at h <;> cases h
          exact .real _
        · cases h
      · cases h

theorem namesOnce_of_number? (h : number? word = some v) : v.NamesOnce := by
  unfold number? at h
  split at h
  · exact namesOnce_of_based? h
  · exact namesOnce_of_based? h
  · exact namesOnce_of_based? h
  · exact namesOnce_of_unsigned? h
  · exact namesOnce_of_unsigned? h
  · exact namesOnce_of_unsigned? h

theorem namesOnce_of_word? (h : word? word = some v) : v.NamesOnce := by
  unfold word? at h
  split at h
  · cases h
    exact .bool true
  · split at h
    · cases h
      exact .bool false
    · split at h
      · cases h
        exact .object (by simp) (List.forall_mem_singleton.mpr (.string _))
      · exact namesOnce_of_number? h

theorem namesOnce_of_scalarValue? (h : scalarValue? cs = some (v, rest)) : v.NamesOnce := by
  have of_map : ∀ {w : List Char} {after : List Char},
      (word? w).map (·, after) = some (v, rest) → v.NamesOnce := by
    intro w after h
    obtain ⟨_, hword, heq⟩ := Option.map_eq_some_iff.mp h
    cases heq
    exact namesOnce_of_word? hword
  unfold scalarValue? at h
  dsimp only at h
  split at h
  · split at h
    · exact of_map h
    · exact of_map h
  · exact of_map h

/-- What the three readers of values give back, for the same fuel. -/
theorem namesOnce_of_fuel (fuel : Nat) :
    (∀ depth cs v rest, value? fuel depth cs = some (v, rest) → v.NamesOnce) ∧
    (∀ depth before cs vs rest, items? fuel depth before cs = some (vs, rest) →
      (∀ v ∈ before, v.NamesOnce) → ∀ v ∈ vs, v.NamesOnce) ∧
    (∀ depth before cs es rest, pairs? fuel depth before cs = some (es, rest) →
      IsTable before → IsTable es) := by
  induction fuel with
  | zero => simp [value?, items?, pairs?]
  | succ fuel ih =>
      obtain ⟨ihValue, ihItems, ihPairs⟩ := ih
      refine ⟨?value, ?items, ?pairs⟩
      case value =>
        intro depth cs v rest h
        unfold value? at h
        split at h
        · obtain ⟨_, -, heq⟩ := Option.map_eq_some_iff.mp h
          cases heq
          exact .string _
        · obtain ⟨_, -, heq⟩ := Option.map_eq_some_iff.mp h
          cases heq
          exact .string _
        · split at h
          · cases h
          · obtain ⟨_, hitems, heq⟩ := Option.map_eq_some_iff.mp h
            cases heq
            exact .array (ihItems _ _ _ _ _ hitems (by simp))
        · split at h
          · cases h
          · obtain ⟨_, hpairs, heq⟩ := Option.map_eq_some_iff.mp h
            cases heq
            exact isTable_iff.mp (ihPairs _ _ _ _ _ hpairs isTable_nil)
        · exact namesOnce_of_scalarValue? h
      case items =>
        intro depth before cs vs rest h hbefore
        unfold items? at h
        split at h
        · cases h
          intro w hw
          exact hbefore w (List.mem_reverse.mp hw)
        · split at h
          · cases h
          · rename_i v after hvalue
            have hcons : ∀ w ∈ v :: before, w.NamesOnce :=
              List.forall_mem_cons.mpr ⟨ihValue _ _ _ _ hvalue, hbefore⟩
            split at h
            · exact ihItems _ _ _ _ _ h hcons
            · cases h
              intro w hw
              exact hcons w (List.mem_reverse.mp hw)
            · cases h
      case pairs =>
        intro depth before cs es rest h hbefore
        unfold pairs? at h
        split at h
        · cases h
          exact hbefore
        · split at h
          · split at h
            · cases h
            · rename_i v after hvalue
              split at h
              · cases h
              · rename_i added hassign
                have hadded := hbefore.assign? (ihValue _ _ _ _ hvalue) hassign
                split at h
                · exact ihPairs _ _ _ _ _ h hadded
                · cases h
                  exact hadded
                · cases h
          · cases h

/-! ### Documents -/

theorem namesOnce_of_line? {parts : List String}
    (h : line? cs = some (.assignment parts name v, rest)) : v.NamesOnce := by
  -- Blank lines and headers come before the assignments.
  unfold line? at h
  split at h
  · cases h
  · cases h
  · cases h
  · cases h
  · split at h <;> cases h
  · split at h <;> cases h
  · split at h
    · obtain ⟨_, hvalue, heq⟩ := Option.map_eq_some_iff.mp h
      cases heq
      exact (namesOnce_of_fuel _).1 _ _ _ _ hvalue
    · cases h

/-- A line adds to the tables of a draft, and to no name twice. -/
theorem isTable_add? {d d' : Draft} {line : Line} (hline : line? cs = some (line, rest))
    (h : IsTable d.entries) (hadd : d.add? line = some d') : IsTable d'.entries := by
  cases line with
  | blank =>
      cases hadd
      exact h
  | header parts name =>
      obtain ⟨_, hchange, rfl⟩ := Option.map_eq_some_iff.mp hadd
      exact h.change? (fun _ _ => IsTable.open?) hchange
  | element parts name =>
      obtain ⟨_, hchange, rfl⟩ := Option.map_eq_some_iff.mp hadd
      exact h.change? (fun _ _ => IsTable.append?) hchange
  | assignment parts name v =>
      obtain ⟨_, hchange, rfl⟩ := Option.map_eq_some_iff.mp hadd
      exact h.change? (fun _ _ hes => hes.assign? (namesOnce_of_line? hline)) hchange

theorem isTable_lines? {fuel : Nat} {d d' : Draft} (h : IsTable d.entries)
    (hlines : lines? fuel d cs = some d') : IsTable d'.entries := by
  induction fuel generalizing d cs with
  | zero => cases hlines
  | succ fuel ih =>
      rw [lines?] at hlines
      split at hlines
      · cases hlines
      · rename_i line after hline
        split at hlines
        · rename_i hadd _
          cases hlines
          exact isTable_add? hline h hadd
        · rename_i hadd _
          exact ih (isTable_add? hline h hadd) hlines
        · cases hlines

/-- The data of a document says each name of a table once. -/
theorem namesOnce_of_read? {text : String} (h : read? text = some v) : v.NamesOnce := by
  obtain ⟨d, hlines, rfl⟩ := Option.map_eq_some_iff.mp h
  exact isTable_iff.mp (isTable_lines? isTable_nil hlines)

end Toml

end SaveLint
