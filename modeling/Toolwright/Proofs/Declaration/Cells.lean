import Toolwright.Proofs.Declaration.Rows
import Toolwright.Proofs.Serving.Reading

/-!
# Containers in cells

What the operations do that host classes and definitions use on their own containers: a row is
written under a key, an item is put at the end or taken away, and rows and items are copied. A copy
is a new cell, and a change is a change of one cell.
-/

namespace Toolwright

set_option autoImplicit false

/-- The value at a cell. -/
def cellValue (n : Nat) : Value := World.placeValue (.cell n)

namespace World

variable {w : World} {n : Nat} {x : Value}

/-- A world in which one cell holds another value. -/
def put (w : World) (n : Nat) (x : Value) : World := { w with cells := w.cells.set n x }

def withCell (w : World) (x : Value) : World := { w with cells := w.cells ++ [x] }

@[simp] theorem getElem?_withCell (w : World) (x : Value) :
    (w.withCell x).cells[w.cells.length]? = some x := by
  simp [withCell]

@[simp] theorem put_withCell (w : World) (x y : Value) :
    (w.withCell x).put w.cells.length y = w.withCell y := by
  simp [put, withCell]

theorem store_cell (w : World) (n : Nat) (x : Value) : w.store (.cell n) x = w.put n x := rfl

theorem followed_cell (h : w.cells[n]? = some x) : w.followed (cellValue n) = x := by
  simp only [cellValue, placeValue, followed, contents, cell, h, Option.getD_some]

theorem classOf_cell (h : w.cells[n]? = some x) : w.classOf (cellValue n) = .builtIn x.kind := by
  simp only [cellValue, placeValue, classOf, cell, h, Option.getD_some]

theorem special?_cell (w : World) (n : Nat) (name : String) : w.special? (cellValue n) name = none :=
  special?_builtIn (k := (w.cell n).kind) rfl name

end World

namespace Machine

variable {w : World} {n : Nat} {held container result : Value} {name : String} {args : List Value}

theorem exec_kept (x : Value) (w : World) :
    (Run.kept x).exec w = (.ok (cellValue w.cells.length), w.withCell x) := rfl

theorem exec_lookCell (h : w.cells[n]? = some held) :
    (Run.look (cellValue n)).exec w = (.ok held, w) := by
  rw [Run.exec_look, World.followed_cell h]

/-- A method of the kind of a container is reached through the place of the container. -/
theorem exec_reachOperation (m : Machine) {k : Kind} (h : w.cells[n]? = some held)
    (hx : Table.find? w.extras (.place (.cell n)) = none) (hk : held.kind = k)
    (hf : k.fields.contains name = false) (ho : k.operations.contains name = true) :
    (m.reach (cellValue n) name).exec w =
      (.ok (.function (.operation k name) (some (cellValue n))), w) := by
  have hown : k.attribute? name = some (.ofObject (.operation k name)) := by
    unfold Kind.attribute?
    rw [if_neg (by rw [hf]; exact Bool.false_ne_true), if_pos ho]
  have hfind : w.find? (w.classOf (cellValue n)) name =
      some (.builtIn k, .ofObject (.operation k name)) := by
    rw [World.classOf_cell h, hk, World.find?_builtIn, List.findSome?_cons, hown]
    rfl
  have hset : w.setAttribute? (cellValue n) name = none := by
    simp only [cellValue, World.placeValue, World.setAttribute?, World.attributeCell?, hx,
      Option.bind_eq_bind, Option.bind_none]
  have accessed : (plainAccess (cellValue n) name).exec w =
      (.ok (some (.function (.operation k name) (some (cellValue n)))), w) := by
    unfold plainAccess
    rw [Run.exec_bind, Run.exec_world]
    simp only [hfind]
    unfold cellValue World.placeValue at hset ⊢
    simp only [hset]
    rfl
  unfold reach
  rw [Run.exec_bind, Run.exec_world]
  simp only [World.special?_cell]
  unfold plainReach
  rw [Run.exec_bind, accessed]
  rfl

/-! ## Changes -/

/-- An operation that changes a container changes its cell and gives what it takes out. -/
theorem exec_plainOperation (m : Machine) (name : String) (args : List Value)
    (h : w.cells[n]? = some held)
    (hc : Value.comparisons.contains name = false) (hi : inPlace.contains name = false)
    (hfit : w.fitsKeys name held args = true)
    (ht : (args.mapM (m.taken name held)).exec w = (.ok args, w))
    (hop : Value.operation w.sameInside w.marks name held args =
      some (.ok ⟨result, some container⟩))
    (hname : name ≠ "index") :
    (m.plainOperation name (cellValue n) args).exec w = (.ok result, w.put n container) := by
  have hdone : (kindOperationOn name (cellValue n) held args).exec w =
      (.ok result, w.put n container) := by
    unfold kindOperationOn
    rw [Run.exec_bind, Run.exec_world]
    dsimp only
    rw [hop]
    rfl
  unfold plainOperation
  rw [Run.exec_bind, Run.exec_world]
  dsimp only
  rw [if_neg (by rw [hc]; exact Bool.false_ne_true), Run.exec_bind, exec_lookCell h]
  dsimp only
  rw [if_neg (by rw [hfit]; exact Bool.false_ne_true), Run.exec_bind, ht]
  dsimp only
  rw [Run.exec_bind, Run.exec_tryCatch, hdone]
  dsimp only
  split
  · exact absurd rfl hname
  · exact absurd rfl hname
  · rw [if_neg (by rw [hi]; exact Bool.false_ne_true)]
    rfl
  · rfl

theorem exec_mapM_taken (m : Machine) {name : String} (hi : takesItems.contains name = false)
    (hp : inPlace.contains name = false) (hc : Value.comparisons.contains name = false)
    (hk : (∃ rows, held = .dict rows) ∨ ∃ xs, held = .list xs) (args : List Value) (w : World) :
    (args.mapM (m.taken name held)).exec w = (.ok args, w) := by
  have given (x : Value) : (taken.given m name x).exec w = (.ok x, w) := by
    unfold taken.given
    rw [if_neg (by rw [hi, hp]; exact Bool.false_ne_true),
      if_neg (by rw [hc]; exact Bool.false_ne_true)]
    rfl
  induction args with
  | nil => rfl
  | cons x args ih =>
    have hx : (m.taken name held x).exec w = (.ok x, w) := by
      unfold taken
      rw [Run.exec_bind, Run.exec_look]
      obtain ⟨rows, rfl⟩ | ⟨xs, rfl⟩ := hk
      · exact given x
      · exact given x
    rw [List.mapM_cons, Run.exec_bind, hx]
    dsimp only
    rw [Run.exec_bind, ih]
    rfl

theorem exec_setItem (m : Machine) {rows : List (Value × Value)} (h : w.cells[n]? = some (.dict rows))
    (k : String) (x : Value) :
    (m.setItem (cellValue n) (.str k) x).exec w =
      (.ok (), w.put n (.dict (Table.insertBy Value.same (.str k) x rows))) := by
  have written : Value.operation w.sameInside w.marks "__setitem__" (.dict rows) [.str k, x] =
      some (.ok ⟨.null, some (.dict (Table.insertBy Value.same (.str k) x rows))⟩) := rfl
  have plain := exec_plainOperation m "__setitem__" [.str k, x] h (by decide) (by decide) rfl
    (exec_mapM_taken m (by decide) (by decide) (by decide) (.inl ⟨_, rfl⟩) _ w) written (by decide)
  have operated : (m.kindOperation "__setitem__" (cellValue n) [.str k, x]).exec w =
      (.ok .null, w.put n (.dict (Table.insertBy Value.same (.str k) x rows))) := by
    unfold kindOperation
    rw [Run.exec_bind, Run.exec_world]
    dsimp only
    rw [if_neg (by decide), Run.exec_bind, exec_lookCell h]
    exact plain
  unfold setItem
  rw [Run.exec_bind, Run.exec_world]
  dsimp only
  rw [Run.exec_bind, exec_lookCell h]
  dsimp only
  rw [World.special?_cell]
  show Run.exec (do
    let _ ← m.kindOperation "__setitem__" (cellValue n) [.str k, x]
    return) w = _
  rw [Run.exec_bind, operated]
  rfl

theorem exec_sendList {xs : List Value} (k : Nat) (h : w.cells[n]? = some (.list xs))
    (hx : Table.find? w.extras (.place (.cell n)) = none) {name : String}
    (ho : Kind.list.operations.contains name = true)
    (hf : Kind.list.fields.contains name = false) (args : List Value)
    (called : ((nested k).operate .list name (cellValue n :: args) []).exec w =
      Run.exec (if !(w.lineage (w.classOf (cellValue n))).contains (.builtIn .list) then
        throw .mismatch else (nested k).kindOperation name (cellValue n) args) w)
    (done : ((nested k).kindOperation name (cellValue n) args).exec w =
      ((nested k).plainOperation name (cellValue n) args).exec w) :
    ((nested (k + 1)).send (cellValue n) name args []).exec w =
      ((nested k).plainOperation name (cellValue n) args).exec w := by
  have hclass : (w.lineage (w.classOf (cellValue n))).contains (.builtIn .list) = true := by
    rw [World.classOf_cell h]
    rfl
  unfold send
  rw [Run.exec_bind, exec_reachOperation _ h hx rfl hf ho, ← done]
  rw [hclass] at called
  exact called

theorem exec_append {xs : List Value} (k : Nat) (h : w.cells[n]? = some (.list xs))
    (hx : Table.find? w.extras (.place (.cell n)) = none) (x : Value) :
    ((nested (k + 1)).send (cellValue n) "append" [x] []).exec w =
      (.ok .null, w.put n (.list (xs ++ [x]))) := by
  rw [exec_sendList k h hx (by decide) (by decide)]
  · exact exec_plainOperation (nested k) "append" [x] h (by decide) (by decide) rfl
      (exec_mapM_taken _ (by decide) (by decide) (by decide) (.inr ⟨_, rfl⟩) _ w) rfl (by decide)
  · unfold operate
    rw [Run.exec_bind, Run.exec_world]
    rfl
  · unfold kindOperation
    rw [Run.exec_bind, Run.exec_world]
    dsimp only
    rw [if_neg (by decide), Run.exec_bind, exec_lookCell h]
    rfl

theorem exec_pop {xs : List Value} {x : Value} (k : Nat) (h : w.cells[n]? = some (.list (xs ++ [x])))
    (hx : Table.find? w.extras (.place (.cell n)) = none) :
    ((nested (k + 1)).send (cellValue n) "pop" [] []).exec w = (.ok x, w.put n (.list xs)) := by
  have popped : Value.operation w.sameInside w.marks "pop" (.list (xs ++ [x])) [] =
      some (.ok ⟨x, some (.list xs)⟩) := by
    have h : Value.listOperation w.sameInside "pop" (xs ++ [x]) [] =
        some ((xs ++ [x]).getLast?.elim (.error .emptyList) fun y =>
          Value.becomes (.list (xs ++ [x]).dropLast) y) := by
      unfold Value.listOperation
      cases (xs ++ [x]).getLast? <;> rfl
    rw [List.getLast?_concat, List.dropLast_concat] at h
    exact h
  rw [exec_sendList k h hx (by decide) (by decide)]
  · exact exec_plainOperation (nested k) "pop" [] h (by decide) (by decide) rfl
      rfl popped (by decide)
  · unfold operate
    rw [Run.exec_bind, Run.exec_world]
    rfl
  · unfold kindOperation
    rw [Run.exec_bind, Run.exec_world]
    dsimp only
    rw [if_neg (by decide), Run.exec_bind, exec_lookCell h]
    rfl

theorem exec_popEmpty (k : Nat) (h : w.cells[n]? = some (.list []))
    (hx : Table.find? w.extras (.place (.cell n)) = none) :
    ((nested (k + 1)).send (cellValue n) "pop" [] []).exec w = (.error .emptyList, w) := by
  have failed : ((nested k).plainOperation "pop" (cellValue n) []).exec w =
      (.error .emptyList, w) := by
    have hop : (kindOperationOn "pop" (cellValue n) (.list []) []).exec w =
        (.error .emptyList, w) := rfl
    unfold plainOperation
    rw [Run.exec_bind, Run.exec_world]
    dsimp only
    rw [if_neg (by decide), Run.exec_bind, exec_lookCell h]
    dsimp only
    rw [if_neg (show ¬ (!w.fitsKeys "pop" (.list []) []) = true from Bool.false_ne_true),
      List.mapM_nil, pure_bind, Run.exec_bind, Run.exec_tryCatch, hop]
    rfl
  rw [exec_sendList k h hx (by decide) (by decide)]
  · exact failed
  · unfold operate
    rw [Run.exec_bind, Run.exec_world]
    rfl
  · unfold kindOperation
    rw [Run.exec_bind, Run.exec_world]
    dsimp only
    rw [if_neg (by decide), Run.exec_bind, exec_lookCell h]
    rfl

/-! ## Copies -/

theorem same_str (a b : String) : Value.same (.str a) (.str b) = decide (a = b) := by
  unfold Value.same
  rfl

theorem insertBy_str {β : Type} (k : String) (x : β) (rows : List (String × β)) :
    Table.insertBy Value.same (.str k) x (rows.map fun row => (Value.str row.1, row.2)) =
      (Table.insert k x rows).map fun row => (Value.str row.1, row.2) := by
  induction rows with
  | nil => rfl
  | cons row rows ih =>
    rw [List.map_cons, Table.insertBy, Table.insert_cons, same_str, ih]
    by_cases h : row.1 = k <;> simp [h]

theorem foldl_insertBy_str (rows t : Named) :
    (rows.map fun row => (Value.str row.1, row.2)).foldl
      (fun t row => Table.insertBy Value.same row.1 row.2 t)
      (t.map fun row => (Value.str row.1, row.2)) =
      (rows.foldl (fun t row => Table.insert row.1 row.2 t) t).map
        fun row => (Value.str row.1, row.2) := by
  induction rows generalizing t with
  | nil => rfl
  | cons row rows ih =>
    rw [List.map_cons, List.foldl_cons, insertBy_str]
    exact ih _

/-- The rows of a dictionary are written into another one. -/
theorem exec_merge (m : Machine) {rows given : Named} (h : w.cells[n]? = some (.ofRows rows))
    {x : Value} (hx : w.followed x = .ofRows given) :
    (kindOperation.merge m (cellValue n) x).exec w =
      (.ok .null, w.put n (.ofRows
        (given.foldl (fun t row => Table.insert row.1 row.2 t) rows))) := by
  have written : Value.operation w.sameInside w.marks "update" (.ofRows rows) [.ofRows given] =
      some (.ok ⟨.null, some (.ofRows
        (given.foldl (fun t row => Table.insert row.1 row.2 t) rows))⟩) := by
    unfold Value.ofRows
    rw [← foldl_insertBy_str]
    rfl
  unfold kindOperation.merge
  rw [Run.exec_bind, Run.exec_look, hx]
  exact exec_plainOperation m "update" [.ofRows given] h (by decide) (by decide)
    rfl rfl written (by decide)

theorem exec_update (k : Nat) {rows given : Named} (h : w.cells[n]? = some (.ofRows rows))
    (he : Table.find? w.extras (.place (.cell n)) = none) {x : Value}
    (hx : w.followed x = .ofRows given) :
    ((nested (k + 1)).send (cellValue n) "update" [x] []).exec w =
      (.ok .null, w.put n (.ofRows
        (given.foldl (fun t row => Table.insert row.1 row.2 t) rows))) := by
  have merged {v : World} {more other : Named} {y : Value}
      (hv : v.cells[n]? = some (.ofRows more)) (hy : v.followed y = .ofRows other) :
      ((nested k).kindOperation "update" (cellValue n) [y]).exec v =
        (.ok .null, v.put n (.ofRows
          (other.foldl (fun t row => Table.insert row.1 row.2 t) more))) := by
    unfold kindOperation
    rw [Run.exec_bind, Run.exec_world]
    dsimp only
    rw [if_neg (by decide), Run.exec_bind, exec_lookCell hv]
    exact exec_merge _ hv hy
  have hlt := (List.getElem?_eq_some_iff.mp h).1
  unfold send
  rw [Run.exec_bind, exec_reachOperation (k := .dict) _ h he rfl (by decide) (by decide)]
  show Run.exec (do
    let _ ← (nested k).kindOperation "update" (cellValue n) [x]
    (nested k).kindOperation "update" (cellValue n) [.ofRows []]) w = _
  rw [Run.exec_bind, merged h hx]
  dsimp only
  rw [merged (List.getElem?_set_self hlt) rfl]
  simp only [World.put, List.set_set]
  rfl

/-- A dictionary that is made of one with different text keys has the same rows. -/
theorem exec_copyRows {rows : Named} (k : Nat) (hr : (Table.keys rows).Nodup)
    (h : w.cells[n]? = some (.ofRows rows))
    (hx : ∀ n, Table.find? w.extras (.place (.cell n)) = none) :
    ((nested (k + 1)).copyRows (cellValue n)).exec w =
      (.ok (cellValue w.cells.length), w.withCell (.ofRows rows)) := by
  have hmade := World.getElem?_withCell w (.ofRows [])
  have hheld : (w.withCell (.ofRows [])).followed (cellValue n) = .ofRows rows := by
    apply World.followed_cell
    show (w.cells ++ [_])[n]? = _
    rw [List.getElem?_append_left (List.getElem?_eq_some_iff.mp h).1, h]
  show Run.exec (do
    let made ← Run.kept (.ofRows [])
    let _ ← (nested (k + 1)).send made "update" [cellValue n] []
    return made) w = _
  rw [Run.exec_bind, exec_kept]
  dsimp only
  rw [Run.exec_bind, exec_update k hmade (hx _) hheld, ← Table.ofRows, Table.ofRows_of_nodup hr,
    World.put_withCell]
  rfl

theorem exec_iterateCell {x : Value} (m : Machine) (h : w.cells[n]? = some x) :
    (m.iterate (cellValue n)).exec w = (x.items, w) := by
  unfold iterate
  rw [Run.exec_bind, Run.exec_world]
  dsimp only
  rw [World.special?_cell, World.special?_cell]
  show Run.exec (Run.lift (w.followed (cellValue n)).items) w = _
  rw [World.followed_cell h, Run.exec_lift]

theorem exec_iterate {xs : List Value} (m : Machine) (h : w.cells[n]? = some (.list xs)) :
    (m.iterate (cellValue n)).exec w = (.ok xs, w) := exec_iterateCell m h

theorem exec_copyItems {xs : List Value} (m : Machine) (h : w.cells[n]? = some (.list xs)) :
    (m.copyItems (cellValue n)).exec w = (.ok (cellValue w.cells.length), w.withCell (.list xs)) := by
  show Run.exec (do Run.kept (.list (← m.iterate (cellValue n)))) w = _
  rw [Run.exec_bind, exec_iterate m h]
  rfl

end Machine

end Toolwright
