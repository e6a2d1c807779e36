import Toolwright.Proofs.Tree.Copies
import Toolwright.Proofs.Tree.Steps
/-!
# Schemas that are declared
A schema that is declared on a class of a serving host is a new object with copies of what is given. It
belongs to that class alone.
-/

namespace Toolwright

set_option autoImplicit false

namespace Machine

open World

variable {w v : World} {C : Nat → Prop} {n : Nat} {x y empty : Value}

/-- A copy is made of data that counts as true, and a new container in the place of other data. Where
that fails, nothing but data was made. -/
theorem copyIfAny_cases {β : Type} {r : Run Value} (m : Machine) (hd : w.HoldsData C)
    (hx : x.Within (w.data C)) (he : empty.Within (w.data C))
    (copied : ∀ z v, r.exec w = (z, v) → w.Gains C v ∧ ∀ y, z = .ok y → y = cellValue w.cells.length ∧
      y.Within (v.data (w.gained C v)))
    {f : Value → Run β} {z : Except Fault β}
    (hr : Run.exec (do
      if ← m.truthy x then
        let y ← r
        f y
      else
        let y ← Run.kept empty
        f y) w = (z, v)) :
    ((∃ f, z = .error f) ∧ w.Gains C v) ∨ ∃ u k, w.Gains C u ∧
      (cellValue k).Within (u.data (w.gained C u)) ∧ (f (cellValue k)).exec u = (z, v) := by
  rw [Run.exec_bind, exec_truthy m hd hx] at hr
  dsimp only at hr
  cases ht : w.truthOf x with
  | true =>
    rw [ht, if_pos rfl] at hr
    rcases Run.exec_bind_cases hr with ⟨e, rfl, hcopy⟩ | ⟨y, u, hcopy, hr⟩
    · exact .inl ⟨⟨e, rfl⟩, (copied _ _ hcopy).1⟩
    · obtain ⟨hg, hy⟩ := copied _ _ hcopy
      obtain ⟨rfl, hw⟩ := hy y rfl
      exact .inr ⟨u, _, hg, hw, hr⟩
  | false =>
    rw [ht, if_neg Bool.false_ne_true, Run.exec_bind, exec_kept] at hr
    obtain ⟨hg, hcell, -⟩ := Gains.withCell hd he
    exact .inr ⟨_, _, hg, hcell, hr⟩

def withSchemaOf (w : World) (n : Nat) (properties required : Value) : World :=
  (w.withObjectOf Shape.inputSchema.cls [("properties", properties),
    ("required", required)]).setAttribute n "_input_schema" (.value (objectValue w.objects.length))

theorem declareSchema_cases (k : Nat) (hb : w.Bundled) (he : w.extras = []) (hd : w.HoldsData C)
    (hx : x.Within (w.data C)) (hy : y.Within (w.data C)) {z : Except Fault Value}
    (hr : ((nested (k + 2)).declareSchema (.made n) x y).exec w = (z, v)) :
    ((∃ f, z = .error f) ∧ w.Gains C v) ∨ ∃ u i j, z = .ok .null ∧ w.Gains C u ∧
      (cellValue i).Within (u.data (w.gained C u)) ∧ (cellValue j).Within (u.data (w.gained C u)) ∧
      v = withSchemaOf u n (cellValue i) (cellValue j) := by
  unfold declareSchema at hr
  obtain hfail | ⟨u, i, hg, hi, hr⟩ := copyIfAny_cases (nested (k + 2)) hd hx
    (show (Value.dict []).Within (w.data C) from trivial)
    (fun _ _ => exec_copyOfRows (k + 1) he hd hx) hr
  · exact .inl hfail
  have hyu := hy.mono (hg.below hd)
  obtain ⟨hfail, hg'⟩ | ⟨t, j, hg', hj, hr⟩ := copyIfAny_cases (nested (k + 2)) hg.data hyu
    (show (Value.list []).Within _ from trivial)
    (fun _ _ => exec_copyOfItems _ hg.data hyu) hr
  · exact .inl ⟨hfail, (hg.trans hg').1⟩
  obtain ⟨hall, hbelow⟩ := hg.trans hg'
  have made := exec_makeRecord k .inputSchema (by decide) (hall.later.bundled hb)
    (show [cellValue i, cellValue j].length = _ from rfl) (by
      intro x hx
      simp only [List.mem_cons, List.not_mem_nil, or_false] at hx
      rcases hx with rfl | rfl <;> rfl)
  rw [Run.exec_bind, show ([("properties", cellValue i), ("required", cellValue j)] : Named) =
    Shape.inputSchema.fields.zip [cellValue i, cellValue j] from rfl, made] at hr
  cases (exec_declareOn ⟨by decide, by decide⟩ _).symm.trans hr
  exact .inr ⟨t, i, j, rfl, hall, (hi.mono (hg'.below hg.data)).mono hbelow, hj.mono hbelow, rfl⟩

theorem inputSchema_cases (k : Nat) {card : ServingCard} (hb : w.Bundled) (he : w.extras = [])
    (hd : w.HoldsData C) (h : w.ServingHost n card C) {xs : List Value} {rows : Named}
    (hxs : ∀ x ∈ xs, x.Within (w.data C)) (hrows : ∀ row ∈ rows, row.2.Within (w.data C))
    {z : Except Fault Value}
    (hr : ((nested (k + 2)).applyClassMethod .inputSchema (.made n) xs rows).exec w = (z, v)) :
    w.Gains C v ∨ ∃ u i j, z = .ok .null ∧ w.Gains C u ∧
      (cellValue i).Within (u.data (w.gained C u)) ∧ (cellValue j).Within (u.data (w.gained C u)) ∧
      v = withSchemaOf u n (cellValue i) (cellValue j) := by
  unfold applyClassMethod at hr
  dsimp only at hr
  rw [Run.exec_bind, Run.exec_lift] at hr
  cases hbind : bindAll HostMethod.inputSchema.signature.takes xs rows with
  | error f =>
    rw [hbind] at hr
    cases hr
    exact .inl (.refl hd)
  | ok arg =>
  rw [hbind] at hr
  dsimp only at hr
  have bound (key : String) : (arg key).Within (w.data C) := by
    refine of_bindAll (Q := fun x => x.Within (w.data C)) hbind hxs hrows ?_ trivial key
    intro p hp x hx
    rw [show HostMethod.inputSchema.signature.takes =
      [("properties", some .null), ("required", some .null)] from rfl] at hp
    simp only [List.mem_cons, List.not_mem_nil, or_false] at hp
    rcases hp with rfl | rfl <;> cases hx <;> trivial
  split at hr
  · obtain ⟨o, v', hask, hgives⟩ := exec_inputSchemaOf k hb hd h
    cases hask.symm.trans hr
    exact .inl hgives.gains
  · obtain ⟨-, hg⟩ | hgiven := declareSchema_cases k hb he hd (bound _) (bound _) hr
    · exact .inl hg
    · exact .inr hgiven

end Machine

def ServingCard.withSchema (card : ServingCard) (properties required : Value) : ServingCard :=
  { card with schema := some (properties, required) }

namespace World

variable {w v : World} {l : Ledger} {C : Nat → Prop} {n : Nat} {key : String} {x y : Value}
  {name description : Value} {card : ServingCard} {cell : Option Nat}

theorem Titled.undeclared (h : w.Titled n name description C) (hn : w.Rooted (.made n))
    (hk : key ∈ declaredNames) (hne : key ∉ ["_name", "_description"]) :
    (w.setAttribute n key (.value x)).Titled n name description C := by
  have hm := moves_setAttribute h.isHost hk x fun _ => False
  have own {field : String} (hf : field ∈ ["_name", "_description"]) :
      (w.setAttribute n key (.value x)).own? (.made n) field = w.own? (.made n) field := by
    rw [own?_set hn, if_neg]
    rintro rfl
    exact hne hf
  exact {
    tellsName := by
      rw [hm.leads.find? hn (by decide)]
      exact h.tellsName
    tellsDescription := by
      rw [hm.leads.find? hn (by decide)]
      exact h.tellsDescription
    ownName := by
      rw [own (by decide)]
      exact h.ownName
    ownDescription := by
      rw [own (by decide)]
      exact h.ownDescription
    data := h.data }

theorem ServingHost.withSchema (h : w.ServingHost n card C) (hd : w.HoldsData C)
    (hx : x.Within (w.data C)) (hy : y.Within (w.data C)) :
    w.Moves (Machine.withSchemaOf w n x y) (fun _ => False) (· = n) ∧
      (Machine.withSchemaOf w n x y).ServingHost n (card.withSchema x y) C ∧
      ∀ k, (Machine.withSchemaOf w n x y).HasSchemaCell n k → k = w.cells.length := by
  let fields : Named := [("properties", x), ("required", y)]
  have hl : w.Later (w.withObjectOf Shape.inputSchema.cls fields) fun _ => False :=
    (Later.refl w _).withObjectOf _ fields
  have hret := hl.retains hd fun _ _ => not_false
  have hu := h.kept ((hl.moves fun _ => False).keepsClass h.methods.rooted not_false) hret hl.objects
    fun k _ x => hl.cells k x not_false
  have hrooted := hu.methods.rooted
  have hset := moves_setAttribute hu.toTitled.isHost (show "_input_schema" ∈ declaredNames by decide)
    (objectValue w.objects.length) fun _ => False
  have hown : (Machine.withSchemaOf w n x y).own? (.made n) "_input_schema" =
      some (.value (objectValue w.objects.length)) := by
    unfold Machine.withSchemaOf
    rw [own?_set hrooted, if_pos rfl]
  have hobj : (Machine.withSchemaOf w n x y).ObjectAt w.objects.length Shape.inputSchema.cls
      w.cells.length fields :=
    have ho := objectAt_withObjectOf w Shape.inputSchema.cls fields
    ⟨ho.object, ho.cell⟩
  refine ⟨(hl.moves _).trans hset,
    hu.retold hset (hu.toTitled.undeclared hrooted (by decide) (by decide)) ?_, ?_⟩
  · have hs : (Machine.withSchemaOf w n x y).Schemed C
        ((Machine.withSchemaOf w n x y).own? (.made n) "_input_schema")
        (card.withSchema x y).schema := by
      rw [hown]
      exact .given hx hy hobj
    exact hs
  · rintro k ⟨o, ho, obj, hat, hk⟩
    cases hown.symm.trans ho
    cases hobj.object.symm.trans hat
    exact (Option.some.inj hk).symm

theorem Follows.advances_schema (h : w.Follows l C) (hn : l (.cls n) = some (.serving card cell))
    (hx : x.Within (w.data C)) (hy : y.Within (w.data C)) :
    w.Advances l C (Machine.withSchemaOf w n x y)
      (l.enter (.cls n) (.serving (card.withSchema x y) (some w.cells.length))) C (· = .cls n) := by
  cases h.enters _ _ hn with
  | serving hf =>
  obtain ⟨hm, hhost, hcells⟩ := hf.toServingHost.withSchema h.data hx hy
  have hclass : (Machine.withSchemaOf w n x y).ServingClass n (card.withSchema x y)
      (some w.cells.length) C := by
    refine hf.retold hm hhost (fun k hk => congrArg some (hcells k hk).symm) ?_
    rintro k ⟨⟩
    show w.cells.length < (w.cells ++ _).length
    simp
  refine h.advances hm (fun _ => rfl) ((hm.retains h.data fun _ _ => not_false).holdsData h.data)
    (fun _ => id) (fun _ => .inl) (fun _ hk => hk.elim) (fun k hk => hk ▸ rfl) (.serving hclass)
    (fun k hk => .inr ?_) (fun k hk => hk.elim) (fun _ _ => .inl) fun _ _ => rfl
  cases (show some w.cells.length = some k from hk)
  exact Nat.le_refl _

end World

namespace Session

variable {w v : World} {l : Ledger} {C : Nat → Prop} {c : String} {n : Nat} {card : ServingCard}
  {cell : Option Nat} {args : List Literal} {named : Literal.Rows} {x : Except Fault Value}

/-- A schema that is declared on a class is entered for that class. Where nothing is given it is asked
for; where the declaration fails, nothing is entered. -/
theorem advances_inputSchema (h : w.Follows l C) (hc : Table.find? w.classIds c = some (.made n))
    (hn : l (.cls n) = some (.serving card cell))
    (hr : (machine.step (.callClass c "input_schema" args named)).exec w = (x, v)) :
    v.names = w.names ∧ ((∃ C', w.Advances l C v l C' fun _ => False) ∨
      ∃ y z cell' C', x = .ok .null ∧
        w.Advances l C v (l.enter (.cls n) (.serving (card.withSchema y z) cell')) C'
          (· = .cls n)) := by
  rw [exec_callClass hc] at hr
  have found (h : w.ServingClass n card cell C) : ∃ k, w.find? (.made n) "input_schema" =
      some (k, .ofClass (.bundled (.host .inputSchema))) := by
    obtain ⟨k, hk⟩ := h.methods.finds ("input_schema", .inputSchema) (by decide)
    exact ⟨_, hk⟩
  cases h.enters _ _ hn with
  | serving hf =>
  obtain ⟨f, rfl, hg⟩ | ⟨u, u₁, xs, rows, hxs, hrows, hr⟩ := Machine.callMethod_cases 998 h.data
    ⟨by decide, by decide⟩ (by decide) (found hf) hr
  · exact ⟨hg.later.names, .inl ⟨_, h.advances_gains hg⟩⟩
  obtain ⟨hg, hin, hnamed⟩ := h.data.written hxs hrows
  have ha := h.advances_gains hg
  cases ha.follows.enters _ _ hn with
  | serving hu =>
  obtain hg' | ⟨t, i, j, rfl, hg', hi, hj, rfl⟩ := Machine.inputSchema_cases 996 ha.follows.bundled
    ha.follows.extras hg.data hu.toServingHost (fun x hx => (hin x hx).1)
    (fun row hr => (hnamed row hr).1) hr
  · exact ⟨hg'.later.names.trans hg.later.names,
      .inl ⟨_, ha.trans (ha.follows.advances_gains hg')⟩⟩
  · have ha' := ha.trans (ha.follows.advances_gains hg')
    exact ⟨hg'.later.names.trans hg.later.names, .inr ⟨_, _, _, _, rfl,
      (ha'.mono fun _ => False.elim).trans (ha'.follows.advances_schema hn hi hj)⟩⟩

end Session

end Toolwright
