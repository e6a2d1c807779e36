import Toolwright.Proofs.Publication.Exposed
import Toolwright.Proofs.Publication.Schema

/-!
# What is told of data and of records

What is told of plain data, or of records with such fields, is what stands behind the references in
it. It is told alike in two worlds in which the same stands behind them.
-/

namespace Toolwright

set_option autoImplicit false

namespace Answer

variable {u w v : World} {name name' : Value → Except Fault Answer}

mutual

/-- What is told of plain data without references to containers does not depend on the world. -/
theorem ofParts_bare {x : Value} (h : x.Within u.bare) : ofParts w name x = ofParts v name' x := by
  cases x with
  | list xs | tuple xs | set xs | frozenset xs =>
    rw [ofParts, ofParts, ofItems_bare h]
  | dict rows | mapping rows =>
    rw [ofParts, ofParts, ofRows_bare h]
  | opaqueRef o =>
    rw [ofParts, ofParts]
    cases o with
    | token | mute | plain => rfl
    | routine => exact h.elim
    | place p => cases p <;> exact h.elim
    | _ => exact h.elim
  | record => exact h.elim
  | _ => rfl

theorem ofItems_bare {xs : List Value} (h : Value.WithinItems u.bare xs) :
    ofItems w name xs = ofItems v name' xs := by
  cases xs with
  | nil => rfl
  | cons x xs => rw [ofItems, ofItems, ofParts_bare h.1, ofItems_bare h.2]

theorem ofRows_bare {rows : List (Value × Value)} (h : Value.WithinRows u.bare rows) :
    ofRows w name rows = ofRows v name' rows := by
  cases rows with
  | nil => rfl
  | cons row rows => rw [ofRows, ofRows, ofParts_bare h.1.1, ofParts_bare h.1.2, ofRows_bare h.2]

end

theorem ofValue_data {C : Nat → Prop} (hd : w.HoldsData C) {x z : Value}
    (hx : x.Within (w.data C)) (he : v.exposed z = w.exposed x) : ofValue v z = ofValue w x := by
  unfold ofValue
  rw [he]
  cases hy : w.exposed x with
  | error f => rfl
  | ok y => exact ofParts_bare (hd.exposed hx hy)

def Unanswering (s : Shape) : Prop := ∀ n name, s ≠ .response n name

theorem ofParts_record {s : Shape} (hs : Unanswering s) {xs : List Value}
    (hx : Value.WithinItems u.bare xs) :
    ofParts w name (.record s xs) = ofParts v name' (.record s xs) := by
  rw [ofParts, ofParts, ofItems_bare hx]
  cases s with
  | response n name => exact absurd rfl (hs n name)
  | _ => rfl

theorem ofRows_records {s : Shape} (hs : Unanswering s) {rows : List (Value × Value)}
    (h : ∀ row ∈ rows, row.1.Within u.bare ∧ ∃ xs, row.2 = .record s xs ∧
      Value.WithinItems u.bare xs) : ofRows w name rows = ofRows v name' rows := by
  induction rows with
  | nil => rfl
  | cons row rows ih =>
    obtain ⟨k, x⟩ := row
    obtain ⟨hk, xs, rfl, hxs⟩ := h _ List.mem_cons_self
    rw [ofRows, ofRows, ofParts_bare hk, ofParts_record hs hxs,
      ih fun row hr => h row (List.mem_cons_of_mem _ hr)]

end Answer

namespace World

variable {w v : World} {C : Nat → Prop}

theorem HoldsData.exposedItems (hd : w.HoldsData C) {xs ys : List Value}
    (hx : Value.WithinItems (w.data C) xs) (hy : w.exposedItems xs = .ok ys) :
    Value.WithinItems w.bare ys := by
  have he : w.exposed (.list xs) = .ok (.list ys) := by
    rw [exposed_list, hy]
    rfl
  exact hd.exposed (x := .list xs) hx he

/-- Records of plain data under names. -/
def recordRows (s : Shape) (rows : List (String × List Value)) : List (Value × Value) :=
  rows.map fun row => (.str row.1, .record s row.2)

theorem of_exposedRecords (hd : w.HoldsData C) {s : Shape} {rows : List (String × List Value)}
    (hx : ∀ row ∈ rows, Value.WithinItems (w.data C) row.2) {ys : List (Value × Value)}
    (hy : w.exposedRows (recordRows s rows) = .ok ys) :
    ∀ row ∈ ys, row.1.Within w.bare ∧ ∃ xs, row.2 = .record s xs ∧ Value.WithinItems w.bare xs := by
  induction rows generalizing ys with
  | nil =>
    cases hy
    simp
  | cons row rows ih =>
    unfold recordRows at hy
    rw [List.map_cons, exposedRows_cons, exposed_record] at hy
    obtain ⟨k, hk, hy⟩ := of_bind_ok hy
    obtain ⟨x, hx', hy⟩ := of_bind_ok hy
    obtain ⟨rest, hrest, hy⟩ := of_bind_ok hy
    obtain ⟨xs, hxs, hx'⟩ := of_bind_ok hx'
    cases hy
    cases hx'
    cases hk
    intro row hr
    rcases List.mem_cons.mp hr with rfl | hr
    · exact ⟨trivial, xs, rfl, hd.exposedItems (hx _ List.mem_cons_self) hxs⟩
    · exact ih (fun row hr => hx row (List.mem_cons_of_mem _ hr)) hrest row hr

theorem Retains.exposedRecords (h : w.Retains v C) (hd : w.HoldsData C) {s : Shape}
    {rows : List (String × List Value)}
    (hx : ∀ row ∈ rows, Value.WithinItems (w.data C) row.2) :
    v.exposedRows (recordRows s rows) = w.exposedRows (recordRows s rows) := by
  induction rows with
  | nil =>
    show v.exposedRows [] = w.exposedRows []
    rw [exposedRows_nil, exposedRows_nil]
  | cons row rows ih =>
    have hrow := h.exposedItems hd (hx row List.mem_cons_self)
    have hrest := ih fun row hr => hx row (List.mem_cons_of_mem _ hr)
    unfold recordRows at hrest ⊢
    rw [List.map_cons, exposedRows_cons, exposedRows_cons, exposed_record, exposed_record,
      exposed_str, exposed_str, hrow, hrest]

end World

namespace Answer

variable {w v : World} {C : Nat → Prop} {s : Shape}

theorem ofValue_record (hs : Unanswering s) (hd : w.HoldsData C) {xs : List Value}
    (hx : Value.WithinItems (w.data C) xs) {z : Value}
    (he : v.exposed z = w.exposed (.record s xs)) :
    ofValue v z = ofValue w (.record s xs) := by
  unfold ofValue
  rw [he, World.exposed_record]
  cases hy : w.exposedItems xs with
  | error f => rfl
  | ok ys => exact ofParts_record hs (hd.exposedItems hx hy)

/-- Records of plain data under names that expose the same are told alike. -/
theorem ofValue_records (hs : Unanswering s) (hd : w.HoldsData C)
    {rows : List (String × List Value)}
    (hx : ∀ row ∈ rows, Value.WithinItems (w.data C) row.2) {z : Value}
    (he : v.exposed z = w.exposed (.dict (World.recordRows s rows))) :
    ofValue v z = ofValue w (.dict (World.recordRows s rows)) := by
  unfold ofValue
  rw [he, World.exposed_dict]
  cases hy : w.exposedRows (World.recordRows s rows) with
  | error f => rfl
  | ok ys =>
    show ofParts v _ (.dict ys) = ofParts w _ (.dict ys)
    rw [ofParts, ofParts, ofRows_records hs (World.of_exposedRecords hd hx hy)]

end Answer

theorem mapM_zip {α β ε : Type} {f : α → Except ε β} {xs : List α} {ys : List β}
    (hl : xs.length = ys.length) (h : ∀ row ∈ xs.zip ys, f row.1 = .ok row.2) :
    xs.mapM f = .ok ys := by
  induction xs generalizing ys with
  | nil =>
    obtain rfl := List.length_eq_zero_iff.mp hl.symm
    rfl
  | cons x xs ih =>
    cases ys with
    | nil => cases hl
    | cons y ys =>
      rw [List.mapM_cons, h _ List.mem_cons_self,
        ih (Nat.succ.inj hl) fun row hr => h row (List.mem_cons_of_mem _ hr)]
      rfl

namespace World

variable {w : World} {C : Nat → Prop} {o s n : Nat} {shape : Shape} {xs : List Value}

/-! ## Records behind references -/

theorem Bundled.shape? (hb : w.Bundled) (hn : 2 ≤ n) (hn' : n < 9) :
    w.shape? (.made n) = Session.start.shape? (.made n) := by
  have hcls := hb.classes n hn hn'
  have hlineage : w.lineage (.made n) = Session.start.lineage (.made n) := by
    simp only [World.lineage, World.above, hcls]
  have hname : w.qualifiedName (.made n) = Session.start.qualifiedName (.made n) := by
    simp only [World.qualifiedName, hcls]
  unfold World.shape?
  rw [hlineage, hname]

theorem ObjectAt.kept {named : Named} {name : String} {x : Value} (h : w.ObjectAt o n s named)
    (hx : Table.find? named name = some x) : w.kept (objectValue o) name = .ok x := by
  unfold World.kept
  rw [(h.setAttribute? name).trans hx]

theorem ObjectAt.inside? (hb : w.Bundled) (hm : shape ∈ Machine.keptShapes)
    (h : w.ObjectAt o shape.cls s (shape.fields.zip xs)) (hl : xs.length = shape.fields.length) :
    w.inside? (.object o) = some (.ok (.record shape xs)) := by
  have found : ∀ shape ∈ Machine.keptShapes, 2 ≤ shape.cls ∧ shape.cls < 9 ∧
      Session.start.shape? (.made shape.cls) = some shape ∧ shape.fields.Nodup := by decide
  obtain ⟨hn, hn', hshape, hnodup⟩ := found shape hm
  have hkeys : (Table.keys (shape.fields.zip xs)).Nodup := by
    show ((shape.fields.zip xs).map Prod.fst).Nodup
    rw [List.map_fst_zip (Nat.le_of_eq hl.symm)]
    exact hnodup
  have hfields : shape.fields.mapM (w.kept (objectValue o)) = .ok xs :=
    mapM_zip hl.symm fun row hr => h.kept (Table.find?_of_mem hkeys hr)
  have hcls : w.shape? (w.classOf (objectValue o)) = some shape := by
    rw [h.classOf, hb.shape? hn hn', hshape]
  show (w.shape? (w.classOf (objectValue o))).map (fun shape => do
    return Value.record shape (← shape.fields.mapM (w.kept (objectValue o)))) = _
  rw [hcls, Option.map_some, hfields]
  rfl

end World

namespace Answer

variable {w : World} {k : String} {x y : Value} {rows : List (Value × Value)} {a : Answer}
  {told : List (Answer × Answer)}

/-! ## Dictionaries row by row -/

/-- What is told of a dictionary that has texts as keys. -/
def ofNamed (rows : List (String × Answer)) : Answer :=
  .dict (rows.map fun row => (.str row.1, row.2))

theorem ofValue_str (w : World) (text : String) : ofValue w (.str text) = .ok (.str text) := rfl

theorem ofValue_nil (w : World) : ofValue w (.dict []) = .ok (.dict []) := rfl

theorem of_ofValue_cons (h : ofValue w (.dict ((.str k, x) :: rows)) = .ok a) :
    ∃ first rest, ofValue w x = .ok first ∧ ofValue w (.dict rows) = .ok (.dict rest) ∧
      a = .dict ((.str k, first) :: rest) := by
  unfold ofValue at h ⊢
  rw [World.exposed_dict, World.exposedRows_cons] at h
  rw [World.exposed_dict]
  obtain ⟨v, hv, h⟩ := of_bind_ok h
  obtain ⟨exposed, hexposed, hv⟩ := of_bind_ok hv
  cases hv
  obtain ⟨key, hkey, hexposed⟩ := of_bind_ok hexposed
  cases hkey
  obtain ⟨y, hy, hexposed⟩ := of_bind_ok hexposed
  obtain ⟨ys, hys, hexposed⟩ := of_bind_ok hexposed
  cases hexposed
  rw [hy, hys]
  rw [ofParts] at h
  obtain ⟨told, htold, h⟩ := of_bind_ok h
  cases h
  rw [ofRows] at htold
  obtain ⟨key, hkey, htold⟩ := of_bind_ok htold
  cases hkey
  obtain ⟨first, hfirst, htold⟩ := of_bind_ok htold
  obtain ⟨rest, hrest, htold⟩ := of_bind_ok htold
  cases htold
  refine ⟨first, rest, hfirst, ?_, rfl⟩
  show ofParts w _ (.dict ys) = _
  rw [ofParts, hrest]
  rfl

theorem ofValue_cons {first : Answer} {rest : List (Answer × Answer)}
    (hx : ofValue w x = .ok first) (hrows : ofValue w (.dict rows) = .ok (.dict rest)) :
    ofValue w (.dict ((.str k, x) :: rows)) = .ok (.dict ((.str k, first) :: rest)) := by
  unfold ofValue at hx hrows ⊢
  rw [World.exposed_dict] at hrows
  rw [World.exposed_dict, World.exposedRows_cons]
  obtain ⟨y, hy, hx⟩ := of_bind_ok hx
  obtain ⟨v, hv, hrows⟩ := of_bind_ok hrows
  obtain ⟨ys, hys, hv⟩ := of_bind_ok hv
  cases hv
  rw [hy, hys]
  rw [ofParts] at hrows
  obtain ⟨told, htold, hrows⟩ := of_bind_ok hrows
  cases hrows
  show ofParts w _ (.dict ((.str k, y) :: ys)) = _
  rw [ofParts, ofRows, hx, htold]
  rfl

theorem ofValue_texts (w : World) (names : List String) :
    ofValue w (.list (names.map .str)) = .ok (.list (names.map .str)) := by
  have htold (name : Value → Except Fault Answer) (names : List String) :
      ofItems w name (names.map .str) = .ok (names.map .str) := by
    induction names with
    | nil => rfl
    | cons text names ih =>
      rw [List.map_cons, ofItems, ih]
      rfl
  have hexposed (names : List String) :
      w.exposedItems (names.map .str) = .ok (names.map .str) := by
    induction names with
    | nil => rfl
    | cons name names ih =>
      rw [List.map_cons, World.exposedItems_cons, ih]
      rfl
  unfold ofValue
  rw [World.exposed_list, hexposed]
  show ofParts w _ (.list (names.map .str)) = _
  rw [ofParts, htold]
  rfl

/-- A dictionary that has texts as keys is told as one with the same keys. -/
theorem of_ofValue_named {named : Named} (h : ofValue w (.ofRows named) = .ok a) :
    ∃ rows, a = ofNamed rows ∧ Table.keys rows = Table.keys named := by
  induction named generalizing a with
  | nil =>
    cases h
    exact ⟨[], rfl, rfl⟩
  | cons row named ih =>
    obtain ⟨first, rest, -, hrest, rfl⟩ := of_ofValue_cons h
    obtain ⟨rows, hrows, hkeys⟩ := ih hrest
    cases hrows
    exact ⟨(row.1, first) :: rows, rfl, congrArg (row.1 :: ·) hkeys⟩

end Answer

end Toolwright
