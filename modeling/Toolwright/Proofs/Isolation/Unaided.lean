import Toolwright.Proofs.Isolation.Methods
import Toolwright.Proofs.Isolation.Stripped

/-!
# Blocks without helpers

A block that asks nothing of its context computes on plain data and sets attributes of an object. It
does the same in a world from which the helpers of the class of that object were stripped.
-/

namespace Toolwright

set_option autoImplicit false

/-- What a block may use that neither calls a helper nor looks up an attribute. -/
def AsksNothing : Use → Prop
  | .written _ | .className => True
  | _ => False

def Stage.Has (e : Stage) (x : Value) : Prop := x.Within e.extent

theorem Stage.Has.mono {e e' : Stage} {x : Value} (h : e.Has x) (he : e.Below e') : e'.Has x :=
  Value.Within.mono he.extent h

/-- An attribute that leaves it to an object where it keeps what is set on it. -/
def Attribute.Yields : Attribute → Prop
  | .field .. | .view _ | .slot .. => False
  | _ => True

def Stage.HasNamed (e : Stage) (named : Named) : Prop := Named.Within e.extent named

theorem Stage.HasNamed.mono {e e' : Stage} {named : Named} (h : e.HasNamed named) (he : e.Below e') :
    e'.HasNamed named :=
  Named.Within.mono he.extent h

/-- The rows of a dictionary that is being built hold plain data. -/
def Stage.HasRows (e : Stage) (rows : List Machine.Row) : Prop :=
  ∀ row ∈ rows, Link.RowWithin e.extent row

theorem Stage.HasRows.mono {e e' : Stage} {rows : List Machine.Row} (h : e.HasRows rows)
    (he : e.Below e') : e'.HasRows rows :=
  fun row hr => (h row hr).mono he.extent

theorem Named.rename_same (named : Named) : Named.rename .same named = named := by
  unfold Named.rename
  simp only [Value.rename_same, List.map_id']

theorem Value.map_rename_same (xs : List Value) : xs.map (Value.rename .same) = xs := by
  rw [show Value.rename .same = id from funext Value.rename_same, List.map_id]

theorem Link.renamedRow_same (row : Machine.Row) : Link.renamedRow .same row = row := by
  simp only [Link.renamedRow, Value.rename_same]

theorem Link.map_renamedRow_same (rows : List Machine.Row) :
    rows.map (Link.renamedRow .same) = rows := by
  rw [show Link.renamedRow .same = id from funext Link.renamedRow_same, List.map_id]

namespace World

namespace Unaided

variable {α : Type} {b : World} {s : HelperSites} {e e' : Stage} {r : Run α} {t : Run Value}
  {m : Machine} {x y : Value} {named : Named} {args : List Value}

/-! ## Computations on data -/

theorem of_equal (hs : b.HasSites s)
    (h : ∀ L : Link, b.Level L → L.Agree e.extent Link.Equal r r) :
    b.Unaided s e (fun _ _ => True) r :=
  of_agree (P := fun _ _ => True) hs h (fun _ _ _ _ _ he => ⟨he.symm, trivial⟩) fun _ _ _ _ h => h

theorem of_renamed (hs : b.HasSites s)
    (h : ∀ L : Link, b.Level L → L.Agree e.extent L.Renamed t t) :
    b.Unaided s e Stage.Has t := by
  refine of_agree (P := fun e x => x.Within e) hs h ?_ fun _ _ _ he hx => hx.mono he
  rintro L e' a _ hL ⟨ha, rfl⟩
  exact ⟨by rw [hL.same, Value.rename_same], ha⟩

theorem of_renamedNamed (hs : b.HasSites s) {t : Run Named}
    (h : ∀ L : Link, b.Level L → L.Agree e.extent L.RenamedNamed t t) :
    b.Unaided s e Stage.HasNamed t := by
  refine of_agree (P := fun e x => Named.Within e x) hs h ?_ fun _ _ _ he hx => Named.Within.mono he hx
  rintro L e' a _ hL ⟨ha, rfl⟩
  exact ⟨by rw [hL.same, Named.rename_same], ha⟩

theorem literal (hs : b.HasSites s) (l : Literal) : b.Unaided s e Stage.Has (Run.literal l) :=
  of_renamed hs fun _ _ => Link.literal_agree l

theorem kept (hs : b.HasSites s) (hx : e.Has x) : b.Unaided s e Stage.Has (Run.kept x) := by
  refine of_renamed hs fun L hL => ?_
  have agree := Link.kept_agree (L := L) hx
  rwa [hL.same, Value.rename_same] at agree

theorem text (hs : b.HasSites s) (hm : ∀ L : Link, L.Faithful m) (hx : e.Has x) :
    b.Unaided s e (fun _ _ => True) (m.text x) := by
  refine of_equal hs fun L hL => ?_
  have agree := Link.text_agree (hm L) hx
  rwa [hL.same, Value.rename_same] at agree

theorem truthy (hs : b.HasSites s) (hx : e.Has x) :
    b.Unaided s e (fun _ _ => True) (m.truthy x) := by
  refine of_equal hs fun L hL => ?_
  have agree := Link.truthy_agree (L := L) (m := m) hx
  rwa [hL.same, Value.rename_same] at agree

theorem sum (hs : b.HasSites s) (hx : e.Has x) (hy : e.Has y) :
    b.Unaided s e Stage.Has (m.sum x y) := by
  refine of_renamed hs fun L hL => ?_
  have agree := Link.sum_agree (L := L) (m := m) hx hy
  rwa [hL.same, Value.rename_same, Value.rename_same] at agree

theorem hashOf (hs : b.HasSites s) (hx : e.Has x) :
    b.Unaided s e (fun _ _ => True) (m.hashOf x) := by
  refine of_equal hs fun L hL => ?_
  have agree := Link.hashOf_agree (L := L) (m := m) hx
  rwa [hL.same, Value.rename_same] at agree

theorem insertRow (hs : b.HasSites s) {row : Machine.Row} {rows : List Machine.Row}
    (hr : Link.RowWithin e.extent row) (hd : e.HasRows rows) :
    b.Unaided s e Stage.HasRows (m.insertRow row rows) := by
  refine of_agree (P := fun e rows => ∀ row ∈ rows, Link.RowWithin e row) hs
    (R := fun L => L.RenamedTable) (fun L hL => ?_) ?_
    fun _ _ _ he hx row hm => (hx row hm).mono he
  · have agree := Link.insertRow_agree (L := L) (m := m) hr hd
    rwa [hL.same, Link.renamedRow_same, Link.map_renamedRow_same] at agree
  · rintro L e' a _ hL ⟨ha, rfl⟩
    exact ⟨by rw [hL.same, Link.map_renamedRow_same], ha⟩

theorem bindBlock (hs : b.HasSites s) (block : Block) (ha : ∀ x ∈ args, e.Has x)
    (hn : e.HasNamed named) :
    b.Unaided s e Stage.HasNamed (Run.build (block.bind args named)) := by
  refine of_renamedNamed hs fun L hL => ?_
  have agree := Link.bindBlock_agree (L := L) block ⟨ha, hn⟩
  rwa [hL.same, Named.rename_same, Value.map_rename_same] at agree

theorem shareNamed (hs : b.HasSites s) (hn : e.HasNamed named) :
    b.Unaided s e Stage.HasNamed
      (named.mapM fun row => do return (row.1, ← Run.share row.2)) := by
  refine of_renamedNamed hs fun L hL => ?_
  refine Link.rows_agree named fun row hr e' he => ?_
  have agree := Link.share_agree (L := L) row.2 ((hn row hr).mono he)
  rwa [hL.same, Value.rename_same] at agree

end Unaided

/-! ## Setting attributes -/

variable {b : World} {s : HelperSites} {e : Stage} {m : Machine} {x : Value} {o k : Nat}
  {name : String}

theorem Unaided.writeCell (hs : b.HasSites s) (hk : e.extent.cell k) (hx : e.Has x) :
    b.Unaided s e (fun _ _ => True) (Machine.writeCell k name x) := by
  refine .change fun u E hu he => ?_
  have hE : E k := he.extent.cell k hk
  have spare := hu.spares hs k hE
  have within : Value.RowsWithin (u.data E) ((u.contents (.cell k)).rows?.getD []) := by
    obtain ⟨y, hy, hw⟩ := hu.data k hE
    rw [show u.contents (.cell k) = y by simp only [contents, cell, hy, Option.getD_some]]
    cases hr : y.rows? with
    | none => exact fun _ h => absurd h List.not_mem_nil
    | some rows => exact Value.within_rows hw hr
  refine ⟨fun log => ?_, hu.put hE (Value.withinRows_iff.mpr
    (Value.within_insertBy trivial (Value.Within.mono he.extent hx) within)), .refl _⟩
  rw [store_cell, store_cell, show (u.stripped s log).contents (.cell k) = u.contents (.cell k) from
    cell_stripped spare, put_stripped spare]

theorem Unaided.attributeCell (ho : b.Made e o) :
    b.Unaided s e (fun e k => ∃ n, k = some n ∧ e.extent.cell n)
      (Machine.attributeCell (objectValue o)) := by
  refine .world fun u E hu he => ⟨fun _ => rfl, ?_⟩
  obtain ⟨n, hn, hE⟩ := hu.attributeCell? (ho.mono he)
  rw [hn]
  exact .returns fun e' he' => ⟨n, rfl, he'.extent.cell n hE⟩

theorem Unaided.look (hs : b.HasSites s) (hx : e.Has x) : b.Unaided s e Stage.Has (Run.look x) := by
  refine .of_renamed hs fun L hL => ?_
  have agree := Link.look_agree (L := L) hx
  rwa [hL.same, Value.rename_same] at agree

theorem Unaided.replaceAttributes (hs : b.HasSites s) (ho : b.Made e o) (hk : e.extent.cell k) :
    b.Unaided s e (fun _ _ => True) (do
      match (← Run.world).contents (.cell k) with
      | .dict _ => modify fun w => w.modifyObject o fun obj => { obj with attributes := some k }
      | _ => throw .mismatch) := by
  refine .world fun u E hu he => ⟨fun log => ?_, ?_⟩
  · rw [show (u.stripped s log).contents (.cell k) = u.contents (.cell k) from
      cell_stripped (hu.spares hs k (he.extent.cell k hk))]
  · split
    · refine .change fun v F hv hle => ⟨fun _ => rfl, hv.modifyObject ho.1 ?_, ?_⟩
      · rintro obj ⟨hc, -⟩
        exact ⟨hc, k, rfl, hle.extent.cell k (he.extent.cell k hk)⟩
      · rw [stage_modifyObject]
        exact .refl _
    · exact .fails _

/-- The attributes of an object are set to rows that stand nowhere else. -/
theorem Unaided.rewriteAttributes (hs : b.HasSites s) (ho : b.Made e o) (hx : e.Has x) :
    b.Unaided s e (fun _ _ => True) (do
      match ← Run.look x, ← Machine.attributeCell (objectValue o) with
      | .dict rows, some n => modify fun w => w.store (.cell n) (.dict rows)
      | _, _ => throw .mismatch) := by
  refine .bind (.look hs hx) fun e₁ y h₁ hy => ?_
  refine .bind (.attributeCell (ho.mono h₁)) fun e₂ _ h₂ hn => ?_
  obtain ⟨n, rfl, hn⟩ := hn
  cases y with
  | dict rows =>
    refine .change fun u E hu he => ?_
    have hE := he.extent.cell n hn
    refine ⟨fun log => put_stripped (hu.spares hs n hE) _, ?_, .refl _⟩
    exact hu.put hE (Value.Within.mono (h₂.trans he).extent hy)
  | _ => exact .fails _

theorem Unaided.writeField (hs : b.HasSites s) (ho : b.Made e o) (hx : e.Has x) (holder : ClassRef) :
    b.Unaided s e (fun _ _ => True) (Machine.writeField holder (objectValue o) name x) := by
  unfold Machine.writeField objectValue
  refine .of_exec fun u E log hu he => ?_
  rw [Run.exec_bind, Run.exec_bind, Run.exec_world, Run.exec_world]
  dsimp only
  by_cases hc : name = "__class__"
  · subst hc
    refine ⟨throw .mismatch, ?_, ?_, .fails _⟩
    all_goals
      cases x with
      | opaqueRef p => cases p with
        | cls => exact hx.elim
        | _ => rfl
      | _ => rfl
  by_cases hd : name = "__dict__"
  · subst hd
    cases x with
    | opaqueRef p =>
      cases p with
      | place p =>
        cases p with
        | cell n => refine ⟨_, ?_, ?_, (Unaided.replaceAttributes hs ho hx).weaken he⟩ <;> rfl
        | _ => exact hx.elim
      | _ => refine ⟨_, ?_, ?_, (Unaided.rewriteAttributes hs ho hx).weaken he⟩ <;> rfl
    | _ => refine ⟨_, ?_, ?_, (Unaided.rewriteAttributes hs ho hx).weaken he⟩ <;> rfl
  · refine ⟨throw (.notWritable ("attribute '" ++ name ++ "' of " ++
      clipped 100 (u.className holder) ++ " objects is not writable")), ?_, ?_, .fails _⟩
    · split <;> first | contradiction | rfl
    · split
      all_goals first | contradiction | rw [className_stripped]

theorem fixedView_stripped (w : World) (o : Nat) (log : List Record) (lacking : String) :
    (w.stripped s log).fixedView (objectValue o) name lacking =
      w.fixedView (objectValue o) name lacking := by
  unfold fixedView
  rw [qualifiedName_stripped]
  rfl

/-- What is set on an object under a name goes where its attributes are, unless its class has a place
of its own for the name. -/
theorem exec_plainAssign {w : World} (hk : w.attributeCell? (objectValue o) = some k)
    (hf : ∀ holder a, w.find? (w.classOf (objectValue o)) name = some (holder, a) → a.Yields) :
    (Machine.plainAssign (objectValue o) name x).exec w = (Machine.writeCell k name x).exec w := by
  have cell : (Machine.attributeCell (objectValue o)).exec w = (.ok (some k), w) := by
    unfold Machine.attributeCell
    rw [Run.exec_bind, Run.exec_world]
    simp only [hk]
    rfl
  unfold Machine.plainAssign
  rw [Run.exec_bind, Run.exec_world]
  simp only [objectValue] at *
  generalize w.find? _ name = found at hf
  cases found with
  | none =>
    dsimp only
    rw [Run.exec_bind, cell]
  | some row =>
    obtain ⟨holder, a⟩ := row
    cases a with
    | field | view | slot => exact (hf _ _ rfl).elim
    | _ =>
      dsimp only
      rw [Run.exec_bind, cell]

theorem Unaided.plainAssign (h : b.Helped s) (ho : b.Made e o) (hx : e.Has x) :
    b.Unaided s e (fun _ _ => True) (Machine.plainAssign (objectValue o) name x) := by
  refine .of_exec fun u E log hu he => ?_
  obtain ⟨k, hk, hE⟩ := hu.attributeCell? (ho.mono he)
  have hc := hu.classOf (ho.mono he)
  have hc' : (u.stripped s log).classOf (objectValue o) = .made s.cls := hc
  have hwrite : b.Unaided s (u.stage E) (fun _ _ => True) (Machine.writeCell k name x) :=
    .writeCell h.sites hE (hx.mono he)
  have room (hf : ∀ holder a, u.find? (.made s.cls) name = some (holder, a) → a.Yields)
      (hf' : ∀ holder a, (u.stripped s log).find? (.made s.cls) name = some (holder, a) → a.Yields) :
      ∃ r', (Machine.plainAssign (objectValue o) name x).exec u = r'.exec u ∧
        (Machine.plainAssign (objectValue o) name x).exec (u.stripped s log) =
          r'.exec (u.stripped s log) ∧ b.Unaided s (u.stage E) (fun _ _ => True) r' :=
    ⟨_, exec_plainAssign hk (by rwa [hc]), exec_plainAssign hk (by rwa [hc']), hwrite⟩
  rcases (h.later hu.later).find?_stripped log name with heq | ⟨a, ha, hf, hf'⟩
  · by_cases hy : ∃ holder a, u.find? (.made s.cls) name = some (holder, a) ∧ ¬ a.Yields
    · obtain ⟨holder, a, hf, hy⟩ := hy
      rw [hf] at heq
      unfold Machine.plainAssign
      rw [Run.exec_bind, Run.exec_bind, Run.exec_world, Run.exec_world]
      dsimp only
      rw [hc, hc', hf, heq]
      cases a with
      | field kind field => exact ⟨_, rfl, rfl, .writeField h.sites (ho.mono he) (hx.mono he) holder⟩
      | view of =>
        refine ⟨throw (u.fixedView (objectValue o) name "setter"), rfl, ?_, .fails _⟩
        rw [← fixedView_stripped u o log]
        rfl
      | slot n slot =>
        let fill (obj : HostObject) : HostObject :=
          { obj with slots := Table.insert (n, slot) x obj.slots }
        refine ⟨modify fun w => w.modifyObject o fill, rfl, rfl, .change fun v F hv hle => ?_⟩
        refine ⟨fun _ => rfl, hv.modifyObject ho.1 fun _ hobj => hobj, ?_⟩
        rw [stage_modifyObject]
        exact .refl _
      | _ => exact (hy trivial).elim
    · have yields (holder : ClassRef) (a : Attribute)
          (hf : u.find? (.made s.cls) name = some (holder, a)) : a.Yields :=
        by_contra fun hn => hy ⟨holder, a, hf, hn⟩
      exact room yields (by rwa [heq])
  · refine room ?_ ?_
    · rw [hf]
      rintro _ _ ⟨⟩
      cases ha <;> trivial
    · intro holder a hn
      rw [hf'] at hn
      cases hn

/-! ## Hooks -/

/-- A value that cannot be called: plain data, wherever its containers are. -/
def Uncallable (x : Value) : Prop := ∃ marks, x.Within ⟨fun _ => True, fun _ => False, marks⟩

theorem Uncallable.special? (h : Uncallable x) (w : World) (name : String) :
    w.special? x name = none := by
  obtain ⟨marks, hx⟩ := h
  have built : ∃ k, w.classOf x = .builtIn k := by
    cases x with
    | opaqueRef p =>
      cases p with
      | place p =>
        cases p with
        | cell n => exact ⟨_, rfl⟩
        | _ => exact hx.elim
      | token | mute | plain => exact ⟨_, rfl⟩
      | _ => exact hx.elim
    | record => exact hx.elim
    | _ => exact ⟨_, rfl⟩
  obtain ⟨k, hk⟩ := built
  exact special?_builtIn hk name

/-- What a class may hold for a hook that uses no helpers: a value that cannot be called, a place in
the objects, or a helper whose block asks nothing. -/
inductive Inert (w : World) : Attribute → Prop
  | value {x : Value} (hx : Uncallable x) : Inert w (.value x)
  | slot (n : Nat) (name : String) : Inert w (.slot n name)
  | ofInstance {r : Nat} {block : Block} (hr : w.RunsOn r block)
    (hu : ∀ u ∈ block.uses, AsksNothing u) : Inert w (.ofObject (.forwards (routineValue r)))
  | ofClass {r : Nat} {block : Block} (hr : w.RunsAlone r block)
    (hu : ∀ u ∈ block.uses, AsksAlone u) : Inert w (.fixed (routineValue r))

/-- The hook of a class under a name uses no helpers, if the class has one. -/
def InertHook (w : World) (c : ClassRef) (name : String) : Prop :=
  ∀ n a, w.find? c name = some (.made n, a) → w.Inert a

variable {u : World} {E : Nat → Prop} {log : List Record}

theorem Uses.find? (hu : b.Uses s.cls u E) (h : b.Helped s) (name : String) :
    u.find? (.made s.cls) name = b.find? (.made s.cls) name :=
  hu.later.find? h.rooted name

theorem Uses.special?_cases (hu : b.Uses s.cls u E) (h : b.Helped s) (ho : b.Made (u.stage E) o)
    (name : String) :
    u.special? (objectValue o) name = none ∨ ∃ n a, b.find? (.made s.cls) name = some (.made n, a) ∧
      u.special? (objectValue o) name =
        some (u.reached (.made n) (.made s.cls) (some (objectValue o)) a) := by
  unfold World.special?
  dsimp only
  rw [hu.classOf ho, hu.find? h]
  cases b.find? (.made s.cls) name with
  | none => exact .inl rfl
  | some row =>
    obtain ⟨holder, a⟩ := row
    cases holder with
    | builtIn k => exact .inl rfl
    | made n => exact .inr ⟨n, a, rfl, rfl⟩

theorem Uses.special?_stripped (hu : b.Uses s.cls u E) (h : b.Helped s) (ho : b.Made (u.stage E) o)
    (hn : name.startsWith "__" = true) :
    (u.stripped s log).special? (objectValue o) name = u.special? (objectValue o) name := by
  have hc : (u.stripped s log).classOf (objectValue o) = .made s.cls := hu.classOf ho
  unfold World.special?
  dsimp only
  rw [hc, hu.classOf ho, (h.later hu.later).find?_reserved log _ hn]
  split
  · rw [reached_stripped]
  · rfl

/-- A machine that uses no helpers for blocks that ask nothing. -/
structure Blind (b : World) (s : HelperSites) (m : Machine) : Prop where
  faithful : ∀ L : Link, L.Faithful m
  uncalled : ∀ {e : Stage} {x : Value} {args : List Value} {named : Named}, Uncallable x →
    b.Unaided s e (fun _ _ => False) (m.invoke x args named)
  eval : ∀ {e : Stage} {o : Nat} {vars : Named} {node : Node}, b.Made e o → e.HasNamed vars →
    (∀ u ∈ node.uses, AsksNothing u) →
    b.Unaided s e Stage.Has (m.eval ⟨objectValue o, vars⟩ node)
  body : ∀ {e : Stage} {o : Nat} {block : Block} {args : List Value} {named : Named}, b.Made e o →
    (∀ u ∈ block.uses, AsksNothing u) → (∀ x ∈ args, e.Has x) → e.HasNamed named →
    b.Unaided s e Stage.Has
      (m.call (.body .ofInstance (.block block)) (objectValue o :: args) named)
  run : ∀ {e : Stage} {o r : Nat} {block : Block} {args : List Value} {named : Named}, b.Made e o →
    b.RunsOn r block → (∀ u ∈ block.uses, AsksNothing u) → (∀ x ∈ args, e.Has x) →
    e.HasNamed named →
    b.Unaided s e Stage.Has (m.invoke (routineValue r) (objectValue o :: args) named)
  helped : ∀ {e : Stage} {o r : Nat} {block : Block} {args : List Value} {named : Named}, b.Made e o →
    b.RunsOn r block → (∀ u ∈ block.uses, AsksNothing u) → (∀ x ∈ args, e.Has x) →
    e.HasNamed named →
    b.Unaided s e Stage.Has
      (m.call (.forwards (routineValue r)) (objectValue o :: args) named)
  alone : ∀ {e : Stage} {r : Nat} {block : Block} {args : List Value} {named : Named},
    b.RunsAlone r block → (∀ u ∈ block.uses, AsksAlone u) → (∀ x ∈ args, e.Has x) →
    e.HasNamed named → b.Unaided s e Stage.Has (m.invoke (routineValue r) args named)

variable {args : List Value} {named : Named}

theorem Blind.use (hm : b.Blind s m) (ho : b.Made e o) {a : Attribute} (ha : b.Inert a)
    (hx : ∀ x ∈ args, e.Has x) (hn : e.HasNamed named) (u : World) (holder cls : ClassRef) :
    b.Unaided s e Stage.Has (m.use (u.reached holder cls (some (objectValue o)) a) args named) := by
  cases ha with
  | value hc =>
    have unbound {x : Value} (hc : Uncallable x) : u.unbound? x = none := by
      obtain ⟨marks, hx⟩ := hc
      unfold World.unbound?
      split
      · exact hx.elim
      · rfl
    simp only [World.reached, unbound hc]
    exact (hm.uncalled hc).mono fun _ _ _ => False.elim
  | slot n name =>
    have called : b.Unaided s e (fun _ _ => False)
        (m.use (u.reached holder cls (some (objectValue o)) (.slot n name)) args named) :=
      hm.uncalled ⟨0, trivial⟩
    exact called.mono fun _ _ _ => False.elim
  | ofInstance hr hu => exact hm.helped ho hr hu hx hn
  | ofClass hr hu => exact hm.alone hr hu hx hn

/-- An attribute of an object is set as the class of the object has it done. -/
theorem Blind.assign (hm : b.Blind s m) (h : b.Helped s)
    (hset : b.InertHook (.made s.cls) "__setattr__") (ho : b.Made e o) (hx : e.Has x) :
    b.Unaided s e (fun _ _ => True) (m.assign (objectValue o) name x) := by
  unfold Machine.assign
  refine .world fun u E hu he => ?_
  have ho := ho.mono he
  have hx := hx.mono he
  refine ⟨fun log => by rw [hu.special?_stripped h ho (by decide +kernel)], ?_⟩
  rcases hu.special?_cases h ho "__setattr__" with hs | ⟨n, a, ha, hs⟩
  · rw [hs]
    exact .plainAssign h ho hx
  · rw [hs]
    have args : ∀ y ∈ [.str name, x], (u.stage E).Has y := by
      simpa using ⟨trivial, hx⟩
    refine (hm.use ho (hset n a ha) args (List.forall_mem_nil _) u _ _).bind fun _ _ _ _ => ?_
    exact .returns fun _ _ => trivial

/-! ## Evaluation -/

variable {vars : Named}

theorem Blind.items (hm : b.Blind s m) (ho : b.Made e o) (hv : e.HasNamed vars) {nodes : List Node}
    (hu : ∀ u ∈ Node.itemUses nodes, AsksNothing u) :
    b.Unaided s e (fun e xs => ∀ x ∈ xs, e.Has x) (m.items ⟨objectValue o, vars⟩ nodes) :=
  .mapM nodes (fun _ _ _ he hx => Stage.Has.mono hx he) fun _ hn _ he =>
    hm.eval (ho.mono he) (hv.mono he) fun u hmem => hu u (Node.mem_itemUses hn hmem)

theorem Blind.writeRow (hm : b.Blind s m) (h : b.Helped s) (ho : b.Made e o) (hv : e.HasNamed vars)
    {row : Node × Node} (hu : ∀ u, u ∈ row.1.uses ∨ u ∈ row.2.uses → AsksNothing u)
    {done : List Machine.Row} (hd : e.HasRows done) :
    b.Unaided s e Stage.HasRows (m.writeRow ⟨objectValue o, vars⟩ done row) := by
  unfold Machine.writeRow
  refine (hm.eval ho hv fun u hmem => hu u (.inl hmem)).bind fun e₁ key h₁ hkey => ?_
  refine (hm.eval (ho.mono h₁) (hv.mono h₁) fun u hmem => hu u (.inr hmem)).bind fun e₂ x h₂ hx => ?_
  refine (Unaided.hashOf h.sites (hkey.mono h₂)).bind fun e₃ hash h₃ _ => ?_
  exact .insertRow h.sites
    (show Link.RowWithin e₃.extent ⟨key, hash, x⟩ from ⟨hkey.mono (h₂.trans h₃), hx.mono h₃⟩)
    (hd.mono (h₁.trans (h₂.trans h₃)))

theorem Blind.writeRows (hm : b.Blind s m) (h : b.Helped s) (ho : b.Made e o) (hv : e.HasNamed vars)
    {rows : List (Node × Node)} (hu : ∀ u ∈ Node.rowUses rows, AsksNothing u)
    {done : List Machine.Row} (hd : e.HasRows done) :
    b.Unaided s e Stage.HasRows (rows.foldlM (m.writeRow ⟨objectValue o, vars⟩) done) := by
  induction rows generalizing e done with
  | nil => exact .returns fun _ he => hd.mono he
  | cons row rows ih =>
    rw [List.foldlM_cons]
    have first := hm.writeRow h ho hv (fun u hmem => hu u (Node.mem_rowUses List.mem_cons_self hmem)) hd
    refine first.bind fun e₁ more h₁ hmore => ih (ho.mono h₁) (hv.mono h₁) (fun u hmem => hu u ?_) hmore
    obtain ⟨k, x⟩ := row
    simp only [Node.rowUses, List.mem_append]
    exact .inr (.inr hmem)

theorem Blind.texts (hm : b.Blind s m) (h : b.Helped s) (ho : b.Made e o) (hv : e.HasNamed vars)
    {nodes : List Node} (hu : ∀ u ∈ Node.itemUses nodes, AsksNothing u) :
    b.Unaided s e (fun _ _ => True)
      (nodes.mapM fun node => do m.text (← m.eval ⟨objectValue o, vars⟩ node)) := by
  have each : b.Unaided s e (fun _ ys => ∀ y ∈ ys, True)
      (nodes.mapM fun node => do m.text (← m.eval ⟨objectValue o, vars⟩ node)) := by
    refine .mapM nodes (fun _ _ _ _ h => h) fun node hn e₁ he => ?_
    refine (hm.eval (ho.mono he) (hv.mono he) fun u hmem => hu u (Node.mem_itemUses hn hmem)).bind
      fun e₂ x _ hx => .text h.sites hm.faithful hx
  exact each.mono fun _ _ _ _ => trivial

theorem Blind.evalWith (hm : b.Blind s m) (h : b.Helped s)
    (hset : b.InertHook (.made s.cls) "__setattr__") (ho : b.Made e o) (hv : e.HasNamed vars)
    {node : Node} (hu : ∀ u ∈ node.uses, AsksNothing u) :
    b.Unaided s e Stage.Has (m.evalWith ⟨objectValue o, vars⟩ node) := by
  cases node with
  | lit v => exact .literal h.sites v
  | var name =>
    simp only [Machine.evalWith]
    cases hf : Table.find? vars name with
    | some x => exact .returns fun _ he => Stage.Has.mono (Named.within_find? hv hf) he
    | none => exact .fails _
  | list nodes =>
    refine (hm.items ho hv hu).bind fun e₁ xs _ hxs => .kept h.sites ?_
    exact Value.withinItems_iff.mpr hxs
  | tuple nodes =>
    refine (hm.items ho hv hu).bind fun e₁ xs _ hxs => .returns fun e₂ he => ?_
    exact Value.withinItems_iff.mpr fun x hx => (hxs x hx).mono he
  | dict rows =>
    refine (hm.writeRows h ho hv hu fun _ hr => absurd hr List.not_mem_nil).bind
      fun e₁ done _ hd => .kept h.sites ?_
    refine Value.withinRows_iff.mpr fun row hr => ?_
    obtain ⟨r, hmem, rfl⟩ := List.mem_map.mp hr
    exact hd r hmem
  | cat nodes => exact (hm.texts h ho hv hu).bind fun _ _ _ _ => .returns fun _ _ => trivial
  | add x y =>
    have hu := fun u hmem => hu u (List.mem_append.mpr hmem)
    refine (hm.eval ho hv fun u hmem => hu u (.inl hmem)).bind fun e₁ x h₁ hx => ?_
    refine (hm.eval (ho.mono h₁) (hv.mono h₁) fun u hmem => hu u (.inr hmem)).bind fun e₂ y h₂ hy => ?_
    exact .sum h.sites (hx.mono h₂) hy
  | cond test whenTrue whenFalse =>
    simp only [Node.uses, List.mem_append] at hu
    refine (hm.eval ho hv fun u hmem => hu u (.inl hmem)).bind fun e₁ x h₁ hx => ?_
    refine (Unaided.truthy h.sites hx).bind fun e₂ c h₂ _ => ?_
    have he := h₁.trans h₂
    cases c with
    | true => exact hm.eval (ho.mono he) (hv.mono he) fun u hmem => hu u (.inr (.inl hmem))
    | false => exact hm.eval (ho.mono he) (hv.mono he) fun u hmem => hu u (.inr (.inr hmem))
  | seq nodes =>
    refine (hm.items ho hv hu).bind fun e₁ xs _ hxs => .returns fun e₂ he => ?_
    rcases List.mem_cons.mp (List.getLastD_mem_cons (l := xs) (a := .null)) with hx | hx
    · rw [hx]
      trivial
    · exact (hxs _ hx).mono he
  | raise kind text => exact .fails _
  | setAttr name value =>
    refine (hm.eval ho hv fun u hmem => hu u (List.mem_cons_of_mem _ hmem)).bind fun e₁ x h₁ hx => ?_
    refine (hm.assign h hset (ho.mono h₁) hx).bind fun _ _ _ _ => .returns fun _ _ => trivial
  | className =>
    refine .world fun u E hu' he => ⟨fun log => ?_, .returns fun _ _ => trivial⟩
    have hc : (u.stripped s log).classOf (objectValue o) = .made s.cls := hu'.classOf (ho.mono he)
    have kind : (u.stripped s log).kindName (objectValue o) = u.kindName (objectValue o) := by
      simp only [objectValue, World.kindName] at *
      rw [className_stripped]
      rfl
    rw [kind]
  | helper name =>
    have asked := hu _ List.mem_cons_self
    split at asked <;> exact asked.elim
  | classHelper name | getAttr name | hasAttr name | perform =>
    exact (hu _ List.mem_cons_self).elim

/-! ## Levels -/

theorem Uncallable.invokeWith (hx : Uncallable x) (m : Machine) (args : List Value) (named : Named) :
    b.Unaided s e (fun _ _ => False) (m.invokeWith x args named) := by
  have unhooked (u : World) : u.special? x "__call__" = none := hx.special? u _
  obtain ⟨marks, hx⟩ := hx
  unfold Machine.invokeWith
  split
  -- Plain data is neither a class nor a function: only a hook is left, and there is none.
  · exact hx.elim
  · exact hx.elim
  · refine .world fun u E _ _ => ⟨fun log => by rw [unhooked, unhooked], ?_⟩
    rw [unhooked]
    exact .fails _

/-- A function that is bound to nothing is called with its arguments. -/
theorem Unaided.invokeRoutine {r : Nat} {f : Function} (hr : b.handles[r]? = some ⟨f, none⟩)
    (hf : b.Unaided s e Stage.Has (m.call f args named)) :
    b.Unaided s e Stage.Has (m.invokeWith (routineValue r) args named) := by
  refine .world fun u E hu he => ⟨fun log => rfl, ?_⟩
  rw [hu.later.handle hr]
  exact hf.weaken he

theorem Blind.callBlock (hm : b.Blind s m) (h : b.Helped s) (ho : b.Made e o) {block : Block}
    (hu : ∀ u ∈ block.uses, AsksNothing u) (ha : ∀ x ∈ args, e.Has x) (hn : e.HasNamed named) :
    b.Unaided s e Stage.Has (m.callBlock block (objectValue o) args named) := by
  unfold Machine.callBlock
  refine (Unaided.bindBlock h.sites block ha hn).bind fun e₁ vars h₁ hv => ?_
  refine (Unaided.shareNamed h.sites hv).bind fun e₂ vars h₂ hv => ?_
  exact hm.eval (ho.mono (h₁.trans h₂)) hv hu

theorem blind_nested (h : b.Helped s) (hset : b.InertHook (.made s.cls) "__setattr__") (k : Nat) :
    b.Blind s (Machine.nested k) := by
  induction k with
  | zero =>
    exact ⟨fun L => Link.faithful_nested L 0, fun _ => .fails _, fun _ _ _ => .fails _,
      fun _ _ _ _ => .fails _, fun _ _ _ _ _ => .fails _, fun _ _ _ _ _ => .fails _,
      fun _ _ _ _ => .fails _⟩
  | succ k hm =>
    exact {
      faithful := fun L => Link.faithful_nested L (k + 1)
      uncalled := fun hx => hx.invokeWith _ _ _
      eval := fun ho hv hu => hm.evalWith h hset ho hv hu
      body := fun ho hu ha hn => hm.callBlock h ho hu ha hn
      run := fun ho hr hu ha hn => .invokeRoutine hr (hm.body ho hu ha hn)
      helped := fun ho hr hu ha hn => hm.run ho hr hu ha hn
      alone := fun hr hu ha hn => .invokeRoutine hr (.of_renamed h.sites fun L hL => by
        have agree := (hm.faithful L).bodyOfClass (e := _) hu ⟨ha, hn⟩
        rwa [hL.same, Named.rename_same, Value.map_rename_same] at agree) }

end World

end Toolwright
