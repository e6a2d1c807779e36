import Toolwright.Proofs.Isolation.Objects

/-!
# Definitions without helpers

A definition can be adapted in a world from which its helpers were stripped. The class that it becomes
there is the one that it becomes with its helpers, without the attributes for these.
-/

namespace Toolwright

set_option autoImplicit false

/-! ## Rows under some keys -/

namespace Table

variable {κ β : Type} [DecidableEq κ]

theorem filter_insert (p : κ → Bool) (k : κ) (x : β) (t : List (κ × β)) :
    (insert k x t).filter (fun row => p row.1) =
      if p k then insert k x (t.filter fun row => p row.1) else t.filter fun row => p row.1 := by
  induction t with
  | nil => cases hp : p k <;> simp [hp]
  | cons row t ih =>
    rw [insert_cons]
    by_cases hk : row.1 = k
    · subst hk
      cases hp : p row.1 <;> simp [hp, insert_cons]
    · rw [if_neg hk, List.filter_cons, List.filter_cons, ih]
      cases hp : p row.1 <;> cases hp' : p k <;> simp [insert_cons, hk]

theorem filter_ofRows (p : κ → Bool) (rows : List (κ × β)) :
    (ofRows rows).filter (fun row => p row.1) = ofRows (rows.filter fun row => p row.1) := by
  induction rows using List.reverseRecOn with
  | nil => rfl
  | append_singleton rows row ih =>
    rw [ofRows_append, List.filter_append, ofRows_append, ← ih]
    show (insert row.1 row.2 (ofRows rows)).filter _ = _
    rw [filter_insert]
    cases hp : p row.1 <;> simp [hp]

end Table

theorem ClassPlan.filter_complete {p : String → Bool}
    (hp : ∀ key ∈ ["__module__", "__doc__", "__eq__", "__hash__"], p key = true)
    (attributes rooms : List (String × Attribute)) :
    (ClassPlan.complete attributes rooms).filter (fun row => p row.1) =
      ClassPlan.complete (attributes.filter fun row => p row.1) (rooms.filter fun row => p row.1) := by
  simp only [List.forall_mem_cons] at hp
  obtain ⟨hmodule, hdoc, heq, hhash, -⟩ := hp
  have settled : (attributes.map settle).filter (fun row => p row.1) =
      (attributes.filter fun row => p row.1).map settle := by
    rw [List.filter_map]
    refine congrArg (List.map settle) (List.filter_congr fun row _ => ?_)
    simp only [Function.comp_apply, settle_key]
  have one (test : Bool) (key : String) (x : Value) (hkey : p key = true) :
      (if test then [] else [(key, Attribute.value x)]).filter (fun row => p row.1) =
        if test then [] else [(key, Attribute.value x)] := by
    cases test <;> simp [hkey]
  unfold complete
  simp only [List.filter_append, settled, Table.find?_filter, hmodule, hdoc, heq, hhash, if_true]
  rw [one _ _ _ hmodule, one _ _ _ hdoc]
  congr 1
  split <;> simp [hhash]

/-! ## The class -/

theorem builtClass_lacking (w : World) (name : String) (base : ClassRef)
    (attributes : List (String × Attribute)) {names : List String}
    (hfree : ∀ key ∈ names, key.startsWith "__" = false) :
    (builtClass w name base attributes).lacking names =
      builtClass w name base (attributes.filter fun row => !names.contains row.1) := by
  have kept (key : String) (hkey : key.startsWith "__" = true) : (!names.contains key) = true := by
    rw [Bool.not_eq_true', List.contains_eq_mem, decide_eq_false_iff_not]
    intro hm
    rw [hfree key hm] at hkey
    cases hkey
  have special : ∀ key ∈ ["__module__", "__doc__", "__eq__", "__hash__", "__dict__", "__weakref__"],
      key.startsWith "__" = true := by
    decide +kernel
  let p (key : String) : Bool := !names.contains key
  have hp (key : String)
      (hk : key ∈ ["__module__", "__doc__", "__eq__", "__hash__", "__dict__", "__weakref__"]) :
      p key = true := kept key (special key hk)
  have hrooms : (roomsBelow w base (Table.ofRows attributes)).filter (fun row => p row.1) =
      roomsBelow w base (Table.ofRows (attributes.filter fun row => p row.1)) := by
    rw [← Table.filter_ofRows]
    unfold roomsBelow
    split
    · rw [List.filter_map, List.filter_filter]
      refine congrArg (List.map _) (List.filter_congr fun room hroom => ?_)
      have hroom : p room = true := by
        simp only [ClassPlan.roomNames, List.mem_cons, List.not_mem_nil, or_false] at hroom
        rcases hroom with rfl | rfl
        · exact hp _ (by simp)
        · exact hp _ (by simp)
      rw [Table.find?_filter, if_pos hroom]
      simp only [Function.comp_apply, hroom, Bool.true_and]
    · rfl
  have hattributes : (builtClass w name base attributes).attributes.filter (fun row => p row.1) =
      (builtClass w name base (attributes.filter fun row => p row.1)).attributes := by
    show (Table.ofRows _).filter _ = Table.ofRows _
    rw [Table.filter_ofRows, ClassPlan.filter_complete (fun key hk => hp key (by
      simp only [List.mem_cons, List.not_mem_nil, or_false] at hk ⊢
      tauto)), hrooms, ← Table.filter_ofRows]
    refine congrArg (fun rows => Table.ofRows (ClassPlan.complete rows _)) ?_
    exact List.filter_comm _ _ _
  exact congrArg (fun rows : List (String × Attribute) =>
    ({ builtClass w name base attributes with attributes := rows } : HostClass)) hattributes

def Definition.freeNames (D : Definition Stored) (reserved : List String) : List String :=
  Table.keys (D.freeRows reserved)

theorem Definition.mem_freeNames {D : Definition Stored} {reserved : List String} {name : String} :
    name ∈ D.freeNames reserved ↔ name ∈ Table.keys D.merged ∧ name ∉ reserved := by
  simp only [freeNames, freeRows, Table.keys, List.map_map, List.mem_map, List.mem_filter,
    Function.comp_apply, Bool.not_eq_true', List.contains_eq_mem, decide_eq_false_iff_not]
  constructor
  · rintro ⟨h, ⟨hm, hr⟩, rfl⟩
    exact ⟨⟨h, hm, rfl⟩, hr⟩
  · rintro ⟨⟨h, hm, rfl⟩, hr⟩
    exact ⟨h, ⟨hm, hr⟩, rfl⟩

/-- No helper of the definition has a name that the language uses itself. -/
def Definition.Ordinary (D : Definition Stored) : Prop :=
  ∀ name ∈ Table.keys D.merged, name.startsWith "__" = false

namespace Machine

variable {w : World} {b : ClassRef} {p : Draft} {D : Definition Stored} {s : HelperSites}
  {log : List Record}

theorem not_mem_freeNames_fixed (ho : D.Ordinary) (doc : Value) {row : String × Attribute}
    (hrow : row ∈ fixedRows doc p) : row.1 ∉ D.freeNames (reservedNames w (World.classValue b)) := by
  intro hm
  obtain ⟨hmerged, hreserved⟩ := Definition.mem_freeNames.mp hm
  have hplain := ho _ hmerged
  have special : ∀ key ∈ ["__module__", "__doc__"], key.startsWith "__" = true := by decide +kernel
  simp only [fixedRows, List.mem_cons, List.not_mem_nil, or_false] at hrow
  rcases hrow with rfl | rfl | rfl | rfl
  · exact absurd (hplain.symm.trans (special "__module__" (by simp))) Bool.false_ne_true
  · exact absurd (hplain.symm.trans (special "__doc__" (by simp))) Bool.false_ne_true
  · exact hreserved (List.mem_append_right _ (by simp))
  · exact hreserved (List.mem_append_right _ (by simp))

theorem toolClass_stripped (ho : D.Ordinary) (text : String)
    (hs : s.names = D.freeNames (reservedNames w (World.classValue b))) :
    toolClass (w.stripped s log) b text p D.helperless = (toolClass w b text p D).lacking s.names := by
  let free := D.freeRows (reservedNames w (World.classValue b))
  let fixed := fixedRows D.description p
  have lacks : (withAttributes free fixed).filter (fun row => !s.names.contains row.1) =
      withAttributes [] fixed := by
    unfold withAttributes
    rw [Table.filter_ofRows fun key => !s.names.contains key, List.filter_append]
    have none : free.filter (fun row => !s.names.contains row.1) = [] := by
      refine List.filter_eq_nil_iff.mpr fun row hrow => ?_
      rw [hs, List.contains_iff_mem.mpr (show row.1 ∈ D.freeNames _ from List.mem_map_of_mem hrow)]
      exact Bool.false_ne_true
    have all : fixed.filter (fun row => !s.names.contains row.1) = fixed := by
      refine List.filter_eq_self.mpr fun row hrow => ?_
      rw [hs, Bool.not_eq_true', List.contains_eq_mem, decide_eq_false_iff_not]
      exact not_mem_freeNames_fixed ho D.description hrow
    rw [none, all]
  have built : toolClass (w.stripped s log) b text p D.helperless =
      builtClass w (Naming.className text "") b (withAttributes [] fixed) := by
    show builtClass (w.stripped s log) _ b (withAttributes [] fixed) = _
    unfold builtClass roomsBelow
    rw [World.lineage_stripped, World.isOpen_stripped]
  rw [built, ← lacks]
  refine (builtClass_lacking w _ b _ fun key hkey => ?_).symm
  rw [hs] at hkey
  exact ho key (Definition.mem_freeNames.mp hkey).1

end Machine

/-! ## What is done to both worlds -/

namespace World

variable {w : World} {s : HelperSites} {log : List Record} {name : String} {shelf : Shelf}

theorem lacking_insert {names : List String} (hn : name ∉ names) (cls : HostClass) (a : Attribute) :
    { cls.lacking names with attributes := Table.insert name a (cls.lacking names).attributes } =
      HostClass.lacking { cls with attributes := Table.insert name a cls.attributes } names := by
  unfold HostClass.lacking
  dsimp only
  rw [Table.filter_insert fun key => !names.contains key, if_pos]
  rw [Bool.not_eq_true', List.contains_eq_mem, decide_eq_false_iff_not]
  exact hn

theorem setAttribute_stripped (hn : name ∉ s.names) (w : World) (log : List Record) (n : Nat)
    (a : Attribute) :
    (w.stripped s log).setAttribute n name a = (w.setAttribute n name a).stripped s log := by
  unfold setAttribute modifyClass stripped
  dsimp only
  refine congrArg (fun classes => ({ w with
    classes, cells := (w.cells.set s.ofInstance (.dict [])).set s.ofClass (.dict []), log } : World)) ?_
  refine List.ext_getElem? fun i => ?_
  rw [List.getElem?_modify, List.getElem?_modify, List.getElem?_modify, List.getElem?_modify]
  cases w.classes[i]? with
  | none => rfl
  | some cls =>
    by_cases hi : n = i <;> by_cases hs : s.cls = i <;> simp [hi, hs, lacking_insert hn]

theorem withClass_stripped (hs : s.cls = w.classes.length) (cls : HostClass) :
    (w.stripped s log).withClass (cls.lacking s.names) = (w.withClass cls).stripped s log := by
  unfold withClass stripped
  dsimp only
  refine congrArg (fun classes => ({ w with
    classes, cells := (w.cells.set s.ofInstance (.dict [])).set s.ofClass (.dict []), log } : World)) ?_
  refine List.ext_getElem? fun i => ?_
  rw [List.getElem?_modify, List.getElem?_append, List.getElem?_append, List.getElem?_modify,
    List.length_modify]
  by_cases hi : i < w.classes.length
  · simp only [hi, if_true]
  · rw [if_neg hi, if_neg hi]
    by_cases he : s.cls = i
    · simp [← he, hs]
    · have hne : i - w.classes.length ≠ 0 := by omega
      obtain ⟨j, hj⟩ := Nat.exists_eq_succ_of_ne_zero hne
      simp [hj]

theorem withTool_stripped (h : w.HasSites s) (hs : s.cls = w.classes.length)
    (hn : "_parameters" ∉ s.names) (cls : HostClass) :
    (w.stripped s log).withTool shelf (cls.lacking s.names) =
      (w.withTool shelf cls).stripped s log := by
  unfold withTool
  rw [withClass_stripped hs, withCell_stripped (w := w.withClass cls) h, length_cells_stripped,
    show (w.stripped s log).classes.length = w.classes.length from List.length_modify ..,
    setAttribute_stripped hn]

theorem publishAs_stripped (hn : "_name" ∉ s.names) (hd : "_description" ∉ s.names) (n : Nat)
    (text : String) (description : Value) :
    (w.stripped s log).publishAs n text description =
      (w.publishAs n text description).stripped s log := by
  unfold publishAs describe
  rw [setAttribute_stripped hn]
  split
  · rfl
  · rw [setAttribute_stripped hd]

theorem withParameter_stripped (log : List Record) (h : w.HasSites s) (hs : s.Spares shelf.cell)
    (p : Parameter) :
    (w.stripped s log).withParameter shelf p = (w.withParameter shelf p).stripped s log ∧
      shelf.adding (w.stripped s log) p.name = shelf.adding w p.name ∧
      (w.withParameter shelf p).HasSites s := by
  have adding : shelf.adding (w.stripped s log) p.name = shelf.adding w p.name := by
    unfold Shelf.adding
    rw [length_cells_stripped]
    rfl
  have made : (w.stripped s log).withObjectOf Shape.toolParameter.cls p.fields =
      (w.withObjectOf Shape.toolParameter.cls p.fields).stripped s log := by
    let obj : HostObject := ⟨.made Shape.toolParameter.cls, some w.cells.length, []⟩
    have cell : (w.stripped s log).withCell (.ofRows p.fields) =
        (w.withCell (.ofRows p.fields)).stripped s log :=
      withCell_stripped h _
    have object := congrArg (fun u : World => { u with objects := w.objects ++ [obj] }) cell
    unfold withObjectOf
    rw [length_cells_stripped]
    exact object
  refine ⟨?_, adding, h.mono ?_⟩
  · unfold withParameter
    rw [adding, made, put_stripped hs]
  · simp [withParameter, put, withObjectOf]

theorem withParameters_stripped (h : w.HasSites s) (hs : s.Spares shelf.cell) (params : List Parameter) :
    (w.stripped s log).withParameters shelf params =
      (w.withParameters shelf params).stripped s log := by
  induction params generalizing w shelf with
  | nil => rfl
  | cons p params ih =>
    obtain ⟨made, adding, sites⟩ := withParameter_stripped log h hs p
    show ((w.stripped s log).withParameter shelf p).withParameters
      (shelf.adding (w.stripped s log) p.name) params = _
    rw [made, adding]
    exact ih sites (show s.Spares (shelf.adding w p.name).cell from hs)

/-- The class is made and furnished alike, but for its attributes for helpers. -/
theorem withFurnished_stripped (shelf : Shelf) (log : List Record) (h : w.HasSites s)
    (hs : s.cls = w.classes.length)
    (hn : ∀ name ∈ ["_parameters", "_name", "_description"], name ∉ s.names) (cls : HostClass)
    (text : String) (description : Value) (params : List Parameter) :
    (w.stripped s log).withFurnished shelf (cls.lacking s.names) text description params =
      (w.withFurnished shelf cls text description params).stripped s log := by
  simp only [List.forall_mem_cons] at hn
  obtain ⟨hparameters, hname, hdescription, -⟩ := hn
  have sites : ((w.withTool shelf cls).publishAs w.classes.length text description).HasSites s := by
    obtain ⟨classes, hp⟩ := publishAs_classes (w.withTool shelf cls) w.classes.length text description
    rw [hp]
    refine h.mono ?_
    simp [withTool, withCell, withClass, setAttribute, modifyClass]
  unfold withFurnished
  rw [withTool_stripped h hs hparameters, length_cells_stripped,
    show (w.stripped s log).classes.length = w.classes.length from List.length_modify ..,
    publishAs_stripped hname hdescription, withParameters_stripped sites]
  exact ⟨(Nat.ne_of_lt h.1).symm, (Nat.ne_of_lt h.2).symm⟩

end World

/-! ## Worlds without helpers -/

/-- The world in which the tables of the helpers of a definition are empty. -/
def World.withoutHelpers (w : World) (p : Draft) : World :=
  { w with cells := (w.cells.set p.ofInstance (.dict [])).set p.ofClass (.dict []) }

/-- Where the helpers of a definition are once it was adapted to a new class. -/
def Draft.sites (p : Draft) (w : World) (names : List String) : HelperSites :=
  ⟨p.ofInstance, p.ofClass, w.classes.length, names⟩

namespace World

variable {w v : World} {p : Draft} {D : Definition Stored} {C : Nat → Prop} {b : ClassRef}
  {shelf : Shelf} {t : ParameterTable} {names : List String}

theorem stripped_unmade (w : World) (p : Draft) (names : List String) (log : List Record) :
    w.stripped (p.sites w names) log = { w.withoutHelpers p with log } := by
  unfold stripped withoutHelpers Draft.sites
  dsimp only
  refine congrArg (fun classes => ({ w with
    classes, cells := (w.cells.set p.ofInstance (.dict [])).set p.ofClass (.dict []), log } : World)) ?_
  refine List.ext_getElem? fun i => ?_
  rw [List.getElem?_modify]
  by_cases hi : i < w.classes.length
  · cases w.classes[i]? <;> simp [(Nat.ne_of_lt hi).symm]
  · rw [List.getElem?_eq_none (Nat.le_of_not_lt hi)]
    rfl

theorem Drafts.hasSites (h : w.Drafts p D) (names : List String) :
    w.HasSites (p.sites w names) :=
  ⟨h.lt (n := p.ofInstance) (by simp [Draft.cells]), h.lt (n := p.ofClass) (by simp [Draft.cells])⟩

theorem Declares.withoutHelpers (h : w.Declares p D C) :
    (w.withoutHelpers p).Declares p D.helperless C := by
  have stripped : (w.stripped (p.sites w []) w.log).Declares p D.helperless C :=
    h.stripped rfl rfl h.bundled.nine_le
  rwa [stripped_unmade] at stripped

theorem Declares.retains_withoutHelpers (h : w.Declares p D C) : w.Retains (w.withoutHelpers p) C := by
  have stripped : w.Retains (w.stripped (p.sites w []) w.log) C :=
    retains_stripped (h.apart_sites rfl rfl)
  rwa [stripped_unmade] at stripped

theorem Shelves.withoutHelpers (h : w.Shelves shelf t C) (hd : w.Declares p D C)
    (ha : ∀ n ∈ shelf.cells, ¬ p.changes n) : (w.withoutHelpers p).Shelves shelf t C := by
  have hr := hd.retains_withoutHelpers
  have spares {n : Nat} (hn : n ∈ shelf.cells) : (p.sites w []).Spares n := by
    have := ha n hn
    simp only [Draft.changes, not_or] at this
    exact this.2.2
  have kept {n : Nat} (hn : n ∈ shelf.cells) : (w.withoutHelpers p).cells[n]? = w.cells[n]? := by
    have same : (w.stripped (p.sites w []) w.log).cells[n]? = w.cells[n]? := cells_stripped (spares hn)
    rwa [stripped_unmade] at same
  refine { cell := (kept List.mem_cons_self).trans h.cell, rows := ?_, names := h.names, cells := h.cells,
           apart := h.apart, values := fun q hq x hx => ?_ }
  · have rows := (List.forall₂_and_left _ _).mpr
      ⟨fun row hrow => kept (List.mem_cons_of_mem _ (List.mem_map_of_mem hrow)), h.rows⟩
    exact rows.imp fun row q hq => ⟨hq.2.key, hq.2.name, hq.2.object.object, hq.1.trans hq.2.object.cell⟩
  · exact ⟨(h.values q hq x hx).1.mono hr.data_below, (h.values q hq x hx).2⟩

theorem FunctionBase.withoutHelpers (h : w.FunctionBase b shelf t C) (hd : w.Declares p D C)
    (ha : ∀ n ∈ shelf.cells, ¬ p.changes n) : (w.withoutHelpers p).FunctionBase b shelf t C where
  rooted := h.rooted
  finds := h.finds
  told := h.told
  fields := h.fields
  parameters := h.parameters
  shelf := h.shelf.withoutHelpers hd ha

end World

namespace Machine

variable {w v : World} {p : Draft} {D : Definition Stored} {C : Nat → Prop} {b : ClassRef}
  {shelf : Shelf} {t : ParameterTable} {base : Value}

theorem find?_attributes_ordinary (h : w.Declares p D C) (ho : D.Ordinary) (reserved : List String)
    (doc : Value) {key : String} (hk : key.startsWith "__" = true)
    (hf : Table.find? (fixedRows doc p) key = none) :
    Table.find? (Table.ofRows (withAttributes (D.freeRows reserved) (fixedRows doc p))) key = none := by
  rw [find?_functionAttributes p doc reserved h.instanceNames h.classNames, hf, Option.none_or]
  unfold Definition.free?
  split
  · rfl
  · have hnone : Table.find? D.merged key = none := Table.find?_eq_none fun hm => by
      rw [ho key hm] at hk
      cases hk
    rw [← Definition.find?_merged h.classNames, hnone]
    rfl

/-- The class of a definition with ordinary helpers is made, unless its name cannot be one. -/
theorem exec_buildToolClass (k : Nat) (h : w.Declares p D C) (ho : D.Ordinary)
    (hbase : w.FunctionBase b shelf t C) (text : String) :
    ((nested (k + 3)).buildClass (Naming.className text "") b
      (withAttributes (D.freeRows (reservedNames w (World.classValue b)))
        (fixedRows D.description p))).exec w =
      if (Naming.className text "").toList.contains '\x00' then (.error .nulInClassName, w)
      else (.ok w.classes.length, w.withTool shelf (toolClass w b text p D)) := by
  have special : ∀ key ∈ ["__slots__", "__qualname__", "__classcell__"],
      key.startsWith "__" = true ∧ key ∉ Table.keys (fixedRows D.description p) := by
    have plain : ∀ key ∈ ["__slots__", "__qualname__", "__classcell__"],
        key.startsWith "__" = true := by
      decide +kernel
    refine fun key hk => ⟨plain key hk, ?_⟩
    simp only [List.mem_cons, List.not_mem_nil, or_false] at hk
    rcases hk with rfl | rfl | rfl <;> simp [Table.keys, fixedRows]
  rw [exec_buildNamed _ fun key hk => find?_attributes_ordinary h ho _ _ (special key hk).1
    (Table.find?_eq_none (special key hk).2)]
  split
  · rfl
  · exact exec_tellAbove (k + 1) hbase h.bundled h.data rfl rfl
      (toolClass_leaves h text (by decide) (by decide +kernel) (by decide) (hbase.fields _ (by simp)))

/-- A definition with ordinary helpers is adapted where its warnings can be worded, and its name and
the names of its parameters have texts. -/
theorem exec_adaptLlm (k : Nat) (h : w.Declares p D C) (ho : D.Ordinary)
    (hbase : w.FunctionBase b shelf t C)
    (hreq : (requireHost llmHost base "LLM tool host" "tool_forge.hosts.llm").exec w =
      (.ok (World.classValue b), w)) {warned : List Record}
    (hwarned : collisionWarnings w D.name (collisions (Table.keys D.merged)
      (reservedNames w (World.classValue b))) = .ok warned) {text : String}
    (htext : w.textOf D.name = .ok text)
    (hname : (Naming.className text "").toList.contains '\x00' = false) {names : List String}
    (hnames : w.textsOf D.params = .ok names) :
    ∃ log, ((nested (k + 3)).adaptLlm p.value base).exec w =
      (.ok (World.classValue (.made w.classes.length)),
        { w.withFurnished shelf (toolClass w b text p D) text D.description
          (List.zipWith takenOver D.params names) with log }) := by
  let u : World := { w with log := w.log ++ warned }
  have hl : w.Later u (fun _ => False) := (World.Later.refl w _).log _
  have hu := (h.unchanged hl).declares
  have hbaseu := hl.functionBase hbase h.data (fun _ _ => id) (fun _ _ => id)
  have hr := hl.retains h.data fun _ _ => id
  have htextu : u.textOf D.name = .ok text := htext
  have hnamesu : u.textsOf D.params = .ok names := hnames
  obtain ⟨x, v, hfurnished⟩ : ∃ x v, ((nested (k + 3)).furnish p.value u.classes.length).exec
      (u.withTool shelf (toolClass u b text p D)) = (x, v) := ⟨_, _, rfl⟩
  obtain ⟨-, -, htold, hdone⟩ := furnish_cases k hu hbaseu htextu hfurnished
  obtain ⟨cls, rfl⟩ := htold names hnamesu
  obtain ⟨names', -, -, rfl, hnames', hv, -⟩ := hdone cls rfl
  cases hnames'.symm.trans hnamesu
  rw [World.withFurnished_log] at hv
  refine ⟨v.log, ?_⟩
  unfold adaptLlm
  rw [Run.exec_bind, hreq]
  dsimp only
  rw [Run.exec_bind, Run.exec_world]
  dsimp only
  rw [Run.exec_bind, exec_freeHelpers h, hwarned]
  dsimp only
  rw [Run.exec_bind, exec_sendDescription (k + 2) hu.toDrafts hu.bundled]
  dsimp only
  rw [Run.exec_bind, exec_nameText _ hu, htextu]
  dsimp only
  rw [Run.exec_bind, show (asClass (World.classValue b)).exec u = (.ok b, u) from rfl]
  dsimp only
  unfold freeKept
  rw [D.attributes_kept]
  show Run.exec (do
    let n ← (nested (k + 3)).buildClass (Naming.className text "") b (withAttributes
      (D.freeRows (reservedNames u (World.classValue b))) (fixedRows D.description p))
    (nested (k + 3)).furnish p.value n) u = _
  rw [Run.exec_bind, exec_buildToolClass k hu ho hbaseu, hname, if_neg Bool.false_ne_true]
  exact hfurnished.trans (congrArg (Prod.mk _) hv)

theorem named_adaptLlm (k : Nat) (h : w.Declares p D C) (ho : D.Ordinary)
    (hbase : w.FunctionBase b shelf t C)
    (hreq : (requireHost llmHost base "LLM tool host" "tool_forge.hosts.llm").exec w =
      (.ok (World.classValue b), w)) {cls : Value}
    (hr : ((nested (k + 3)).adaptLlm p.value base).exec w = (.ok cls, v)) {text : String}
    (htext : w.textOf D.name = .ok text) :
    (Naming.className text "").toList.contains '\x00' = false := by
  obtain ⟨-, -, hno⟩ | ⟨warned, u, text', -, rfl, htext', -, hr⟩ := adaptLlm_reaches k h hreq hr
  · exact absurd rfl (hno cls)
  cases htext.symm.trans htext'
  have hl := (World.Later.refl w fun _ => False).log (w.log ++ warned)
  have hbuilt := exec_buildToolClass k (h.unchanged hl).declares ho
    (hl.functionBase hbase h.data (fun _ _ => id) fun _ _ => id) text
  obtain ⟨n, _, hbuild, -⟩ := Run.of_exec_bind hr
  by_contra hnul
  rw [if_pos (Bool.of_not_eq_false hnul)] at hbuilt
  cases hbuild.symm.trans hbuilt

theorem not_mem_freeNames_fields (hbase : w.FunctionBase b shelf t C) {key : String}
    (hk : key ∈ ["_parameters", "_name", "_description"]) :
    key ∉ D.freeNames (reservedNames w (World.classValue b)) := by
  intro hmem
  have plain : ∀ key ∈ ["_parameters", "_name", "_description"], key.startsWith "__" = false := by
    decide +kernel
  refine (Definition.mem_freeNames.mp hmem).2 (List.contains_iff_mem.mp ?_)
  refine mem_reservedNames (plain key hk) (hbase.fields key ?_)
  simp only [List.mem_cons, List.not_mem_nil, or_false] at hk ⊢
  tauto

/-- A definition that is adapted with its helpers is adapted as well without them: to the same class
without the attributes for helpers. -/
theorem adaptLlm_helperless {s : HelperSites} (k : Nat) (h : w.Declares p D C) (ho : D.Ordinary)
    (hbase : w.FunctionBase b shelf t C) (ha : ∀ n ∈ shelf.cells, ¬ p.changes n)
    (hreq : ∀ u : World, u.hosts = w.hosts →
      (requireHost llmHost base "LLM tool host" "tool_forge.hosts.llm").exec u =
        (.ok (World.classValue b), u)) {cls : Value}
    (hr : ((nested (k + 3)).adaptLlm p.value base).exec w = (.ok cls, v)) (log : List Record)
    (hs : s = p.sites w (D.freeNames (reservedNames w (World.classValue b)))) :
    ∃ log', ((nested (k + 3)).adaptLlm p.value base).exec { w.withoutHelpers p with log } =
      (.ok cls, v.stripped s log') := by
  have sites : w.HasSites s := hs ▸ h.hasSites _
  have cls_eq : s.cls = w.classes.length := hs ▸ rfl
  have names_eq : s.names = D.freeNames (reservedNames w (World.classValue b)) := hs ▸ rfl
  obtain ⟨u, hu⟩ : ∃ u : World, u = { w.withoutHelpers p with log } := ⟨_, rfl⟩
  have bare : w.stripped s log = u := by
    rw [hs, hu]
    exact w.stripped_unmade p _ log
  obtain ⟨-, -, hdone⟩ := adaptLlm_cases k h hbase (hreq w rfl) hr
  obtain ⟨text, names, rows, own, rfl, htext, hnames, -, -, -, -, hv, -⟩ := hdone cls rfl
  have hname := named_adaptLlm k h ho hbase (hreq w rfl) hr htext
  have hl : (w.withoutHelpers p).Later u (fun _ => False) := hu ▸ (World.Later.refl _ _).log log
  have hd := h.withoutHelpers
  have hr' : w.Retains u C := bare ▸ World.retains_stripped (h.apart_sites (hs ▸ rfl) (hs ▸ rfl))
  have htext' : u.textOf D.name = .ok text :=
    (hr'.textOf h.data (h.values _ List.mem_cons_self).1).trans htext
  have hnames' : u.textsOf D.params = .ok names := by
    refine (hr'.textsOf h.data fun spec hs => h.within_params hs _ ?_).trans hnames
    simp [ParamSpec.values]
  have unwarned : collisionWarnings u D.name
      (collisions (Table.keys D.helperless.merged) (reservedNames u (World.classValue b))) = .ok [] :=
    if_pos (.inl List.mergeSort_nil)
  have hosts : u.hosts = w.hosts := by
    rw [hu]
    rfl
  obtain ⟨log', hrun⟩ := exec_adaptLlm k (hd.unchanged hl).declares
    (fun _ hm => absurd hm List.not_mem_nil)
    (hl.functionBase (hbase.withoutHelpers h ha) hd.data (fun _ _ => id) fun _ _ => id)
    (hreq u hosts) unwarned htext' hname hnames'
  have free : ∀ key ∈ ["_parameters", "_name", "_description"], key ∉ s.names :=
    fun key hk => names_eq ▸ not_mem_freeNames_fields hbase hk
  have furnished := World.withFurnished_stripped shelf log sites cls_eq free
    (toolClass w b text p D) text D.description (List.zipWith takenOver D.params names)
  have made : toolClass u b text p D.helperless = (toolClass w b text p D).lacking s.names := by
    rw [← bare]
    exact toolClass_stripped ho text names_eq
  rw [← made, bare] at furnished
  have length : u.classes.length = w.classes.length := by
    rw [hu]
    rfl
  rw [length] at hrun
  refine ⟨log', ?_⟩
  rw [← hu, hv]
  refine hrun.trans (congrArg (Prod.mk _) ?_)
  exact congrArg (fun w : World => { w with log := log' }) furnished

end Machine

end Toolwright
