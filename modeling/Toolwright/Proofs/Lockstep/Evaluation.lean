import Toolwright.Proofs.Lockstep.Attributes

/-!
# Evaluation in linked worlds

Each node is evaluated alike on both sides by a machine whose parts run alike, from the left to the
right: what one part does is what the next one finds.
-/

namespace Toolwright

set_option autoImplicit false

/-- Whether a node itself asks for something of its context or of the session. -/
def Node.asks : Node → Bool
  | .helper .. | .classHelper .. | .setAttr .. | .getAttr .. | .hasAttr .. | .className | .perform .. =>
    true
  | _ => false

namespace Link

variable {L : Link} {m : Machine} {e : Extent} {c c' : Value} {p : Use → Prop} {vars : Named}

/-- A machine evaluates nodes alike in two contexts, as long as they ask for no more than is said. -/
def Evaluates (L : Link) (m : Machine) (e : Extent) (c c' : Value) (p : Use → Prop) : Prop :=
  ∀ ⦃e' : Extent⦄ ⦃vars : Named⦄ ⦃node : Node⦄, e.Below e' → Named.Within e' vars →
    (∀ u ∈ node.uses, p u) →
    L.Agree e' L.Renamed (m.eval ⟨c, vars⟩ node) (m.eval ⟨c', Named.rename L.ρ vars⟩ node)

theorem Faithful.evaluates (hm : L.Faithful m) (hc : L.Context e c c' p) : L.Evaluates m e c c' p :=
  fun _ _ _ he hv hu => hm.eval (hc.mono he) hv hu

theorem Evaluates.mono {e' : Extent} (he : e.Below e') (h : L.Evaluates m e c c' p) :
    L.Evaluates m e' c c' p :=
  fun _ _ _ he' hv hu => h (he.trans he') hv hu

theorem Evaluates.here (h : L.Evaluates m e c c' p) (hv : Named.Within e vars) {node : Node}
    (hu : ∀ u ∈ node.uses, p u) :
    L.Agree e L.Renamed (m.eval ⟨c, vars⟩ node) (m.eval ⟨c', Named.rename L.ρ vars⟩ node) :=
  h (Extent.Below.refl e) hv hu

/-! ## Parts of nodes -/

theorem items_agree (h : L.Evaluates m e c c' p) (hv : Named.Within e vars)
    {nodes : List Node} (hu : ∀ u ∈ Node.itemUses nodes, p u) :
    L.Agree e L.RenamedItems (m.items ⟨c, vars⟩ nodes)
      (m.items ⟨c', Named.rename L.ρ vars⟩ nodes) := by
  unfold Machine.items
  apply Agree.mapM
  intro node hn e' he
  exact h he (hv.mono he) fun u hmem => hu u (Node.mem_itemUses hn hmem)

theorem rows_agree {α : Type} {f g : α → Run Value} (rows : List (String × α))
    (h : ∀ row ∈ rows, ∀ e', e.Below e' → L.Agree e' L.Renamed (f row.2) (g row.2)) :
    L.Agree e L.RenamedNamed (rows.mapM fun row => do return (row.1, ← f row.2))
      (rows.mapM fun row => do return (row.1, ← g row.2)) := by
  induction rows generalizing e with
  | nil => exact Agree.pure fun _ _ => ⟨by simp [Named.Within], rfl⟩
  | cons row rows ih =>
    rw [List.mapM_cons, List.mapM_cons]
    simp only [bind_assoc, pure_bind]
    apply Agree.bind (h row List.mem_cons_self e (Extent.Below.refl e))
    rintro e₁ x _ h₁ ⟨hx, rfl⟩
    apply Agree.bind (ih fun row hr e' he => h row (List.mem_cons_of_mem _ hr) e' (h₁.trans he))
    rintro e₂ xs _ h₂ ⟨hxs, rfl⟩
    apply Agree.pure
    intro e₃ h₃
    refine ⟨?_, rfl⟩
    intro z hz
    rcases List.mem_cons.mp hz with rfl | hz
    · exact hx.mono (h₂.trans h₃)
    · exact (hxs z hz).mono h₃

theorem named_agree (h : L.Evaluates m e c c' p) (hv : Named.Within e vars)
    {rows : List (String × Node)} (hu : ∀ u ∈ Node.namedUses rows, p u) :
    L.Agree e L.RenamedNamed (m.named ⟨c, vars⟩ rows)
      (m.named ⟨c', Named.rename L.ρ vars⟩ rows) := by
  unfold Machine.named
  have made : L.Agree e L.RenamedNamed
      (rows.mapM fun row => do return (row.1, ← m.eval ⟨c, vars⟩ row.2))
      (rows.mapM fun row => do return (row.1, ← m.eval ⟨c', Named.rename L.ρ vars⟩ row.2)) := by
    apply rows_agree
    intro row hr e' he
    exact h he (hv.mono he) fun u hmem => hu u (Node.mem_namedUses hr hmem)
  apply Agree.bind made
  rintro e₁ named _ _ ⟨hn, rfl⟩
  apply Agree.pure
  intro e₂ he
  exact ⟨(Named.within_ofRows hn).mono he, Named.ofRows_rename _ named⟩

/-! ## Rows of a dictionary -/

def renamedRow (ρ : Renaming) (row : Machine.Row) : Machine.Row :=
  ⟨row.key.rename ρ, row.hash, row.value.rename ρ⟩

def RowWithin (e : Extent) (row : Machine.Row) : Prop := row.key.Within e ∧ row.value.Within e

/-- The rows of a dictionary that is being built. -/
def RenamedTable (L : Link) (e : Extent) (rows others : List Machine.Row) : Prop :=
  (∀ row ∈ rows, RowWithin e row) ∧ others = rows.map (renamedRow L.ρ)

theorem RowWithin.mono {e e' : Extent} (he : e.Below e') {row : Machine.Row}
    (h : RowWithin e row) : RowWithin e' row := ⟨h.1.mono he, h.2.mono he⟩

theorem meets_agree {row new : Machine.Row} (hr : RowWithin e row) (hn : RowWithin e new) :
    L.Agree e Equal (m.meets row new) (m.meets (renamedRow L.ρ row) (renamedRow L.ρ new)) := by
  unfold Machine.meets
  cases hs : Value.same row.key new.key with
  | true =>
    simp only [renamedRow, Value.same_rename, hs, if_true]
    exact Agree.pure fun _ _ => rfl
  | false =>
    cases hh : row.hash.isSome && row.hash == new.hash with
    | true =>
      simp only [renamedRow, Value.same_rename, hs, hh, Bool.false_eq_true, if_false, if_true]
      exact saysEqual_agree hr.1 hn.1
    | false =>
      simp only [renamedRow, Value.same_rename, hs, hh, Bool.false_eq_true, if_false]
      exact Agree.pure fun _ _ => rfl

theorem insertRow_agree {new : Machine.Row} {rows : List Machine.Row} {e : Extent}
    (hn : RowWithin e new) (hr : ∀ row ∈ rows, RowWithin e row) :
    L.Agree e L.RenamedTable (m.insertRow new rows)
      (m.insertRow (renamedRow L.ρ new) (rows.map (renamedRow L.ρ))) := by
  induction rows generalizing e with
  | nil => exact Agree.pure fun _ he => ⟨by simpa using hn.mono he, rfl⟩
  | cons row rows ih =>
    have first := hr row List.mem_cons_self
    have others := fun r hmem => hr r (List.mem_cons_of_mem row hmem)
    simp only [List.map_cons, Machine.insertRow]
    apply Agree.bind (meets_agree first hn)
    rintro e₁ met _ h₁ rfl
    cases met with
    | true =>
      apply Agree.pure
      intro e₂ h₂
      have he := h₁.trans h₂
      refine ⟨?_, rfl⟩
      intro r hmem
      rcases List.mem_cons.mp hmem with rfl | hmem
      · exact ⟨first.1.mono he, hn.2.mono he⟩
      · exact (others r hmem).mono he
    | false =>
      apply Agree.bind (ih (hn.mono h₁) fun r hmem => (others r hmem).mono h₁)
      rintro e₂ rest _ h₂ ⟨hrest, rfl⟩
      apply Agree.pure
      intro e₃ h₃
      refine ⟨?_, rfl⟩
      intro r hmem
      rcases List.mem_cons.mp hmem with rfl | hmem
      · exact first.mono (h₁.trans (h₂.trans h₃))
      · exact (hrest r hmem).mono h₃

theorem writeRow_agree (h : L.Evaluates m e c c' p) (hv : Named.Within e vars)
    {row : Node × Node} (hu : ∀ u, u ∈ row.1.uses ∨ u ∈ row.2.uses → p u)
    {done : List Machine.Row} (hd : ∀ row ∈ done, RowWithin e row) :
    L.Agree e L.RenamedTable (m.writeRow ⟨c, vars⟩ done row)
      (m.writeRow ⟨c', Named.rename L.ρ vars⟩ (done.map (renamedRow L.ρ)) row) := by
  unfold Machine.writeRow
  apply Agree.bind (h.here hv fun u hmem => hu u (.inl hmem))
  rintro e₁ key _ h₁ ⟨hk, rfl⟩
  apply Agree.bind (h h₁ (hv.mono h₁) fun u hmem => hu u (.inr hmem))
  rintro e₂ value _ h₂ ⟨hx, rfl⟩
  apply Agree.bind (hashOf_agree (hk.mono h₂))
  rintro e₃ hash _ h₃ rfl
  exact insertRow_agree
    (show RowWithin e₃ ⟨key, hash, value⟩ from ⟨hk.mono (h₂.trans h₃), hx.mono h₃⟩)
    fun r hmem => (hd r hmem).mono (h₁.trans (h₂.trans h₃))

theorem writeRows_agree {e : Extent} (h : L.Evaluates m e c c' p)
    (hv : Named.Within e vars) {rows : List (Node × Node)} (hu : ∀ u ∈ Node.rowUses rows, p u)
    {done : List Machine.Row} (hd : ∀ row ∈ done, RowWithin e row) :
    L.Agree e L.RenamedTable (rows.foldlM (m.writeRow ⟨c, vars⟩) done)
      (rows.foldlM (m.writeRow ⟨c', Named.rename L.ρ vars⟩) (done.map (renamedRow L.ρ))) := by
  induction rows generalizing e done with
  | nil => exact Agree.pure fun _ he => ⟨fun r hmem => (hd r hmem).mono he, rfl⟩
  | cons row rows ih =>
    rw [List.foldlM_cons, List.foldlM_cons]
    apply Agree.bind (writeRow_agree h hv
      (fun u hmem => hu u (Node.mem_rowUses List.mem_cons_self hmem)) hd)
    rintro e₁ more _ h₁ ⟨hmore, rfl⟩
    refine ih (h.mono h₁) (hv.mono h₁) (fun u hmem => hu u ?_) hmore
    obtain ⟨k, x⟩ := row
    simp only [Node.rowUses, List.mem_append]
    exact .inr (.inr hmem)

/-! ## Nodes -/

theorem use_items_agree (hm : L.Faithful m) (h : L.Evaluates m e c c' p) (hv : Named.Within e vars)
    {a a' : Access} (ha : L.Reached e a a') {args : List Node} {named : List (String × Node)}
    (hu : ∀ u ∈ Node.itemUses args ++ Node.namedUses named, p u) :
    L.Agree e L.Renamed
      (do
        let args ← m.items ⟨c, vars⟩ args
        m.use a args (← m.named ⟨c, vars⟩ named))
      (do
        let args ← m.items ⟨c', Named.rename L.ρ vars⟩ args
        m.use a' args (← m.named ⟨c', Named.rename L.ρ vars⟩ named)) := by
  apply Agree.bind (items_agree h hv fun u hmem => hu u (List.mem_append_left _ hmem))
  rintro e₁ xs _ h₁ ⟨hxs, rfl⟩
  apply Agree.bind (named_agree (h.mono h₁) (hv.mono h₁)
    fun u hmem => hu u (List.mem_append_right _ hmem))
  rintro e₂ ys _ h₂ ⟨hys, rfl⟩
  exact hm.use (ha.mono (h₁.trans h₂)) ⟨fun x hx => (hxs x hx).mono h₂, hys⟩

theorem cat_agree (hm : L.Faithful m) (h : L.Evaluates m e c c' p) (hv : Named.Within e vars)
    {nodes : List Node} (hu : ∀ u ∈ Node.itemUses nodes, p u) :
    L.Agree e Equal (nodes.mapM fun node => do m.text (← m.eval ⟨c, vars⟩ node))
      (nodes.mapM fun node => do m.text (← m.eval ⟨c', Named.rename L.ρ vars⟩ node)) := by
  apply Agree.mapM_equal
  intro node hn e' he
  apply Agree.bind (h he (hv.mono he) fun u hmem => hu u (Node.mem_itemUses hn hmem))
  rintro e₁ x _ _ ⟨hx, rfl⟩
  exact text_agree hm hx

/-- What asks for nothing itself is evaluated alike if its parts are. -/
theorem evalWith_parts (hm : L.Faithful m) (h : L.Evaluates m e c c' p) (hv : Named.Within e vars)
    {node : Node} (hn : node.asks = false) (hu : ∀ u ∈ node.uses, p u) :
    L.Agree e L.Renamed (m.evalWith ⟨c, vars⟩ node)
      (m.evalWith ⟨c', Named.rename L.ρ vars⟩ node) := by
  cases node with
  | lit v => exact literal_agree v
  | var name =>
    simp only [Machine.evalWith]
    rw [Named.find?_rename]
    cases hf : Table.find? vars name with
    | some x => exact Agree.pure fun _ he => ⟨(Named.within_find? hv hf).mono he, rfl⟩
    | none => exact Agree.throw (.same _)
  | list nodes =>
    apply Agree.bind (items_agree h hv hu)
    rintro e₁ xs _ _ ⟨hxs, rfl⟩
    exact kept_items_agree hxs Iff.rfl (by rw [Value.rename, Value.renameItems_eq])
  | tuple nodes =>
    apply Agree.bind (items_agree h hv hu)
    rintro e₁ xs _ _ ⟨hxs, rfl⟩
    apply Agree.pure
    intro e₂ he
    refine ⟨Value.withinItems_iff.mpr fun x hx => (hxs x hx).mono he, ?_⟩
    rw [Value.rename, Value.renameItems_eq]
  | dict rows =>
    apply Agree.bind (writeRows_agree h hv hu (show ∀ row ∈ [], RowWithin e row by simp))
    rintro e₁ done _ _ ⟨hd, rfl⟩
    have hrows : Value.RowsWithin e₁ (done.map fun row => (row.key, row.value)) := by
      intro row hr
      obtain ⟨r, hmem, rfl⟩ := List.mem_map.mp hr
      exact hd r hmem
    have heq : Value.dict ((done.map (renamedRow L.ρ)).map fun row => (row.key, row.value)) =
        (Value.dict (done.map fun row => (row.key, row.value))).rename L.ρ := by
      rw [Value.rename, Value.renameRows_eq, List.map_map, List.map_map]
      rfl
    rw [heq]
    exact kept_agree (Value.withinRows_iff.mpr hrows)
  | cat nodes =>
    apply Agree.bind (cat_agree hm h hv hu)
    rintro e₁ parts _ _ rfl
    exact Agree.pure fun _ _ => ⟨trivial, rfl⟩
  | add a b =>
    have hu := fun u hmem => hu u (List.mem_append.mpr hmem)
    apply Agree.bind (h.here hv fun u hmem => hu u (.inl hmem))
    rintro e₁ x _ h₁ ⟨hx, rfl⟩
    apply Agree.bind (h h₁ (hv.mono h₁) fun u hmem => hu u (.inr hmem))
    rintro e₂ y _ h₂ ⟨hy, rfl⟩
    exact sum_agree (hx.mono h₂) hy
  | cond test whenTrue whenFalse =>
    simp only [Node.uses, List.mem_append] at hu
    apply Agree.bind (h.here hv fun u hmem => hu u (.inl hmem))
    rintro e₁ x _ h₁ ⟨hx, rfl⟩
    apply Agree.bind (truthy_agree hx)
    rintro e₂ b _ h₂ rfl
    have he := h₁.trans h₂
    cases b with
    | true => exact h he (hv.mono he) fun u hmem => hu u (.inr (.inl hmem))
    | false => exact h he (hv.mono he) fun u hmem => hu u (.inr (.inr hmem))
  | seq nodes =>
    apply Agree.bind (items_agree h hv hu)
    rintro e₁ xs _ _ ⟨hxs, rfl⟩
    have hlast : (xs.map (Value.rename L.ρ)).getLastD (Value.null.rename L.ρ) =
        (xs.getLastD .null).rename L.ρ := List.getLastD_map
    apply Agree.pure
    intro e₂ he
    refine ⟨?_, hlast⟩
    rcases List.mem_cons.mp List.getLastD_mem_cons with hx | hx
    · rw [hx]
      trivial
    · exact (hxs _ hx).mono he
  | raise kind text => exact Agree.throw (.same _)
  | helper | classHelper | setAttr | getAttr | hasAttr | className | perform => cases hn

theorem setAttr_agree (h : L.Evaluates m e c c' p) (hv : Named.Within e vars) {name : String}
    {node : Node} (hu : ∀ u ∈ node.uses, p u)
    (hset : ∀ {e' : Extent} {x : Value}, e.Below e' → x.Within e' →
      L.Agree e' Equal (m.assign c name x) (m.assign c' name (x.rename L.ρ))) :
    L.Agree e L.Renamed (m.evalWith ⟨c, vars⟩ (.setAttr name node))
      (m.evalWith ⟨c', Named.rename L.ρ vars⟩ (.setAttr name node)) := by
  apply Agree.bind (h.here hv hu)
  rintro e₁ x _ h₁ ⟨hx, rfl⟩
  apply Agree.bind (hset h₁ hx)
  rintro e₂ _ _ _ _
  exact Agree.pure fun _ _ => ⟨trivial, rfl⟩

/-- Both contexts are of classes with the same name. -/
theorem className_agree (hk : ∀ {w v : World}, L.Linked w v → e.Below (L.extent w) →
    v.kindName c' = w.kindName c) :
    L.Agree e L.Renamed (m.evalWith ⟨c, vars⟩ .className)
      (m.evalWith ⟨c', Named.rename L.ρ vars⟩ .className) := by
  apply Agree.world
  intro w v hl he
  rw [hk hl he]
  exact .ok hl (Extent.Below.refl _) ⟨trivial, rfl⟩

/-- A call without arguments is one of what a block may ask for, or of a method of both classes. -/
theorem Context.called {name : String} {bare : Bool} (hc : L.Context e c c' p)
    (hu : p (if bare then .called name else .asked name)) :
    p (.asked name) ∨ bare = true ∧ L.present ∧
      L.left.world.TellAlike L.right.world L.left.cls L.right.cls name ∧ c = L.left.context ∧
      c' = L.right.context := by
  cases bare with
  | false => exact .inl hu
  | true =>
    cases hc with
    | own hp => exact hu.imp_right fun ht => ⟨rfl, hp, ht, rfl, rfl⟩
    | null => exact .inl hu
    | apart => exact .inl hu

theorem Context.noStep (hc : L.Context e c c' p) : ¬ p .step := by
  cases hc <;> exact id

theorem evalWith_agree (hm : L.Faithful m) (hc : L.Context e c c' p) (hv : Named.Within e vars)
    {node : Node} (hu : ∀ u ∈ node.uses, p u) :
    L.Agree e L.Renamed (m.evalWith ⟨c, vars⟩ node)
      (m.evalWith ⟨c', Named.rename L.ρ vars⟩ node) := by
  have h := hm.evaluates hc
  cases node with
  | lit | var | list | tuple | dict | cat | add | cond | seq | raise =>
    exact evalWith_parts hm h hv rfl hu
  | helper name args named =>
    rcases hc.called (hu _ List.mem_cons_self) with ha | ⟨hnone, hown⟩
    · apply Agree.bind (reach_agree hm hc ha)
      rintro e₁ a a' h₁ ha
      exact use_items_agree hm (h.mono h₁) (hv.mono h₁) ha.reached
        fun u hmem => hu u (List.mem_cons_of_mem _ hmem)
    · obtain ⟨ha, hn⟩ := Bool.and_eq_true_iff.mp hnone
      obtain rfl := List.isEmpty_iff.mp ha
      obtain rfl := List.isEmpty_iff.mp hn
      obtain ⟨hp, ht, rfl, rfl⟩ := hown
      exact tells_agree hm hp ht
  | classHelper name args named =>
    simp only [Machine.evalWith]
    rw [← bind_assoc, ← bind_assoc]
    apply Agree.bind (classReach_agree hc (hu _ List.mem_cons_self))
    rintro e₁ a a' h₁ ha
    exact use_items_agree hm (h.mono h₁) (hv.mono h₁) ha
      fun u hmem => hu u (List.mem_cons_of_mem _ hmem)
  | setAttr name value =>
    exact setAttr_agree h hv (fun u hmem => hu u (List.mem_cons_of_mem _ hmem))
      fun he hx => assign_agree hm (hc.mono he) (hu _ List.mem_cons_self) hx
  | getAttr name default =>
    apply Agree.bind (literal_agree default)
    rintro e₁ x _ h₁ ⟨hx, rfl⟩
    exact attributeOr_agree hm (hc.mono h₁) (hu _ List.mem_cons_self) hx
  | hasAttr name =>
    apply Agree.bind (has_agree hm hc (hu _ List.mem_cons_self))
    rintro e₁ b _ _ rfl
    exact Agree.pure fun _ _ => ⟨trivial, rfl⟩
  | className => exact className_agree (kindName_agree hc (hu _ List.mem_cons_self))
  | perform step =>
    exact absurd (hu _ List.mem_cons_self) hc.noStep

end Link

end Toolwright
