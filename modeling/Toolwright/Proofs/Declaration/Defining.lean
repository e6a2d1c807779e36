import Toolwright.Proofs.Declaration.Declaring

/-!
# Defining

A definition that is made declares nothing but its name: its parameters and both tables of helpers
are new and empty.
-/

namespace Toolwright

set_option autoImplicit false

namespace World

/-- A world with a new object of which some of the cells behind it are new as well. -/
def withObjectOn (w : World) (n : Nat) (named : Named) (cells : List Value) : World :=
  { w with
    cells := w.cells ++ .ofRows named :: cells
    objects := w.objects ++ [⟨.made n, some w.cells.length, []⟩] }

theorem objectAt_withObjectOn (w : World) (n : Nat) (named : Named) (cells : List Value) :
    (w.withObjectOn n named cells).ObjectAt w.objects.length n w.cells.length named :=
  ⟨by simp [withObjectOn], by simp [withObjectOn]⟩

theorem later_withObjectOn (w : World) (n : Nat) (named : Named) (cells : List Value) :
    w.Later (w.withObjectOn n named cells) (fun _ => False) where
  rest := rfl
  classes := List.prefix_rfl
  objects := List.prefix_append _ _
  handles := List.prefix_rfl
  cells _ _ _ hx := getElem?_of_extended (List.prefix_append _ _) hx
  cells_le := by simp [withObjectOn]
  marks_le := Nat.le_refl _

theorem withCell_withObjectOn (w : World) (n : Nat) (named : Named) (cells : List Value)
    (x : Value) :
    (w.withObjectOn n named cells).withCell x = w.withObjectOn n named (cells ++ [x]) := by
  simp [withObjectOn, withCell]

theorem put_withObjectOn (w : World) (n : Nat) (named named' : Named) (cells : List Value) :
    (w.withObjectOn n named cells).put w.cells.length (.ofRows named') =
      w.withObjectOn n named' cells := by
  simp [withObjectOn, put]

end World

/-- The places of a definition that is made in a world. -/
def newDraft (w : World) : Draft where
  object := w.objects.length
  own := w.cells.length
  params := w.cells.length + 1
  specs := []
  table := w.objects.length + 1
  tableOwn := w.cells.length + 2
  ofInstance := w.cells.length + 3
  ofClass := w.cells.length + 4

def World.withDefinition (w : World) (name : Value) : World :=
  (w.withObjectOn definitionClass (Definition.fields { name } (newDraft w)) [.list []]).withObjectOn
    Shape.helperTable.cls [("instance", cellValue (w.cells.length + 3)),
      ("class_scope", cellValue (w.cells.length + 4))] [.dict [], .dict []]

namespace World

variable {w : World} {C : Nat → Prop}

theorem later_withDefinition (w : World) (name : Value) :
    w.Later (w.withDefinition name) (fun _ => False) :=
  (w.later_withObjectOn _ _ _).trans (later_withObjectOn _ _ _ _) fun _ hn _ => hn

theorem declares_withDefinition (hb : w.Bundled) (hd : w.HoldsData C) {name : Value}
    (hx : name.Within (w.data C)) (hs : name.IsShared) :
    (w.withDefinition name).Declares (newDraft w) { name } C := by
  have hl := w.later_withDefinition name
  have hr := hl.retains hd fun _ _ => id
  have hinner := w.objectAt_withObjectOn definitionClass
    (Definition.fields { name } (newDraft w)) [.list []]
  exact {
    object := (later_withObjectOn _ _ _ _).objectAt hinner id
    params := by simp [withDefinition, withObjectOn, newDraft]
    specs := .nil
    table := ⟨by simp [withDefinition, withObjectOn, newDraft],
      by simp [withDefinition, withObjectOn, newDraft]⟩
    ofInstance := by simp [withDefinition, withObjectOn, newDraft, helperRows, Value.ofRows]
    ofClass := by simp [withDefinition, withObjectOn, newDraft, helperRows, Value.ofRows]
    cells := by simp [Draft.cells, newDraft]
    block := by rintro s ⟨⟩
    instanceBodies := by simp
    classBodies := by simp
    instanceNames := List.nodup_nil
    classNames := List.nodup_nil
    bundled := hl.bundled hb
    data := hr.holdsData hd
    apart := by
      intro n hn hc
      have hlt := hd.lt hc
      simp only [Draft.cells, newDraft, List.mem_cons, List.map_nil, List.not_mem_nil, or_false] at hn
      omega
    values := by
      intro y hy
      simp only [Definition.values, List.flatMap_nil, List.mem_cons, List.not_mem_nil,
        or_false] at hy
      rcases hy with rfl | rfl
      · exact ⟨hx.mono hr.data_below, hs⟩
      · exact ⟨trivial, rfl⟩ }

end World

namespace Machine

variable {w : World} {n : Nat} {named : Named} {cells : List Value} {name : String}

theorem exec_assignNew (m : Machine) (hb : w.Bundled) (hn : 2 ≤ n) (hn' : n < 9)
    (hp : Session.start.isPlain (.made n) name = true) (x : Value) :
    (m.assign (objectValue w.objects.length) name x).exec (w.withObjectOn n named cells) =
      (.ok (), w.withObjectOn n (Table.insert name x named) cells) := by
  rw [exec_assignField m (w.objectAt_withObjectOn n named cells)
    ((w.later_withObjectOn n named cells).bundled hb) hn hn' hp, World.put_withObjectOn]

theorem exec_keptNew (x : Value) : (Run.kept x).exec (w.withObjectOn n named cells) =
    (.ok (cellValue (w.cells.length + (cells.length + 1))),
      w.withObjectOn n named (cells ++ [x])) := by
  rw [exec_kept, World.withCell_withObjectOn]
  simp [World.withObjectOn]

/-- A record of two fields that is made without arguments gets two new containers. -/
theorem exec_makePair (k : Nat) {shape : Shape} (hm : shape ∈ keptShapes) (hb : w.Bundled)
    {a b : String} {x y : Value} (hf : shape.fields = [a, b]) (hab : b ≠ a)
    (hbind : ∀ self, ∃ arg, bindAll (RecordMethod.fill.signature shape).takes [self] [] = .ok arg ∧
      arg "self" = self ∧ arg a = x ∧ arg b = y)
    (hx : Run.share x = Run.kept x) (hy : Run.share y = Run.kept y) :
    ((nested (k + 2)).invoke (World.recordClass shape) [] []).exec w =
      (.ok (objectValue w.objects.length), w.withObjectOn shape.cls
        [(a, cellValue (w.cells.length + 1)), (b, cellValue (w.cells.length + 2))] [x, y]) := by
  have hfits : ∀ shape ∈ keptShapes, 2 ≤ shape.cls ∧ shape.cls < 9 ∧
      (∀ name ∈ shape.fields, Session.start.isPlain (.made shape.cls) name = true) ∧
      Session.start.find? (.made shape.cls) "__init__" =
        some (.made shape.cls, .ofObject (.bundled (.record shape .fill))) := by
    intro shape hm
    simp only [keptShapes, List.mem_cons, List.not_mem_nil, or_false] at hm
    rcases hm with rfl | rfl | rfl | rfl <;> exact ⟨by decide, by decide, by decide, rfl⟩
  obtain ⟨hn, hn', hplain, hfill⟩ := hfits shape hm
  obtain ⟨arg, hbind, hself, ha, hb'⟩ := hbind (objectValue w.objects.length)
  refine exec_instantiate (k + 1) hb hn hn' hfill ?_
  show ((nested k).applyRecordMethod shape .fill [objectValue w.objects.length] []).exec
    (w.withObjectOn shape.cls [] []) = _
  unfold applyRecordMethod
  rw [hbind]
  show Run.exec ((nested k).fillRecord shape arg) (w.withObjectOn shape.cls [] []) = _
  have each (f : String → Run Unit) : [a, b].forM f = (do f a; f b; pure ()) := rfl
  have hinsert (y : Value) (x : Value) : Table.insert b y [(a, x)] = [(a, x), (b, y)] := by
    rw [Table.insert_new (by simpa [Table.keys] using hab)]
    rfl
  unfold fillRecord
  simp only [hf, each, hself, ha, hb', hx, hy, bind_assoc, pure_bind]
  rw [Run.exec_bind, exec_keptNew]
  dsimp only
  rw [Run.exec_bind, exec_assignNew _ hb hn hn' (hplain a (by simp [hf]))]
  dsimp only
  rw [Run.exec_bind, exec_keptNew]
  dsimp only
  rw [Run.exec_bind, exec_assignNew _ hb hn hn' (hplain b (by simp [hf])), Table.insert_nil, hinsert]
  rfl

theorem exec_makeHelperTable (k : Nat) (hb : w.Bundled) :
    ((nested (k + 2)).invoke (World.recordClass .helperTable) [] []).exec w =
      (.ok (objectValue w.objects.length), w.withObjectOn Shape.helperTable.cls
        [("instance", cellValue (w.cells.length + 1)),
          ("class_scope", cellValue (w.cells.length + 2))] [.dict [], .dict []]) :=
  exec_makePair k (by decide) hb rfl (by decide) (fun _ => ⟨_, rfl, rfl, rfl, rfl⟩) rfl rfl

theorem exec_makeDefinition (k : Nat) (hb : w.Bundled) (x : Value) :
    ((nested (k + 4)).invoke (World.classValue (.made definitionClass)) [x] []).exec w =
      (.ok (newDraft w).value, w.withDefinition x) := by
  refine exec_instantiate (k + 3) hb (by decide) (by decide)
    (f := .bundled (.definition .configure)) rfl ?_
  have assign (name : String) (y : Value) {named named' : Named} {cells : List Value}
      (hp : Session.start.isPlain (.made 3) name = true) (he : Table.insert name y named = named') :
      ((nested (k + 2)).assign (objectValue w.objects.length) name y).exec
        (w.withObjectOn 3 named cells) = (.ok (), w.withObjectOn 3 named' cells) := by
    rw [← he]
    exact exec_assignNew _ hb (by decide) (by decide) hp y
  let rows : Named := [("_name", x), ("_description", .null),
    ("_params", cellValue (w.cells.length + 1)), ("_execute_block", .null)]
  let u := w.withObjectOn 3 rows [.list []]
  have hu : u.Bundled := (w.later_withObjectOn _ _ _).bundled hb
  let t := u.withObjectOn 4 [("instance", cellValue (w.cells.length + 3)),
    ("class_scope", cellValue (w.cells.length + 4))] [.dict [], .dict []]
  have hcells : u.cells.length = w.cells.length + 2 := by simp [u, World.withObjectOn]
  have hobjects : u.objects.length = w.objects.length + 1 := by simp [u, World.withObjectOn]
  have table : ((nested (k + 2)).invoke (World.recordClass .helperTable) [] []).exec u =
      (.ok (objectValue (w.objects.length + 1)), t) := by
    rw [exec_makeHelperTable k hu]
    simp [t, u, World.withObjectOn, Shape.cls]
  have ht : u.Later t (fun _ => False) := u.later_withObjectOn _ _ _
  have last : ((nested (k + 2)).assign (objectValue w.objects.length) "_helper_methods"
      (objectValue (w.objects.length + 1))).exec t = (.ok (), w.withDefinition x) := by
    rw [exec_assignField _ (ht.objectAt (w.objectAt_withObjectOn 3 rows [.list []]) id)
      (ht.bundled hu) (by decide) (by decide) (by decide)]
    simp [t, u, rows, World.put, World.withObjectOn, World.withDefinition, newDraft, Definition.fields,
      blockValue, Shape.cls, definitionClass, Table.insert_cons]
  show Run.exec ((nested (k + 2)).configure (objectValue w.objects.length) x .null)
    (w.withObjectOn 3 [] []) = _
  unfold configure
  rw [Run.exec_bind, assign "_name" x (by decide) (Table.insert_nil _ _)]
  dsimp only
  rw [Run.exec_bind, assign "_description" .null (by decide) rfl]
  dsimp only
  rw [Run.exec_bind, exec_keptNew]
  dsimp only
  rw [Run.exec_bind, assign "_params" _ (by decide) rfl]
  dsimp only
  rw [Run.exec_bind, assign "_execute_block" .null (by decide) (show _ = rows from rfl)]
  dsimp only
  rw [Run.exec_bind, List.nil_append, show w.withObjectOn 3 rows [.list []] = u from rfl, table]
  dsimp only
  rw [Run.exec_bind, last]
  rfl

end Machine

end Toolwright
