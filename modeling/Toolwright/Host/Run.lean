import Toolwright.Host.Place
import Toolwright.Value.Conversion

/-!
# Computations on a world

A computation changes a world and may fail; what it did before it failed remains. Containers that
can change get cells of their own when they are shared, and records become objects.
-/

/-!
## Views and cursors

A view shows the keys, the values or the rows of a dictionary or mapping as they are when it is
asked. A cursor gives the items of a container one after another; one on a dictionary or a set fails
once their number has changed.
-/

namespace Toolwright.World

set_option autoImplicit false

def shown (w : World) (v : View) : List Value :=
  let held := w.followed v.source
  match held.rows?, v.part with
  | some rows, .keys => rows.map (·.1)
  | some rows, .values => rows.map (·.2)
  | some rows, .items => rows.map fun row => .tuple [row.1, row.2]
  | none, _ => held.items.toOption.getD []

def changed? (w : World) (c : Cursor) : Option Fault :=
  if (w.shown c.view).length == c.length then none
  else
    match w.followed c.view.source with
    | .dict _ => some (.sizeChanged "dictionary")
    | .set _ => some (.sizeChanged "Set")
    | _ => none

def remaining (w : World) (c : Cursor) : Except Fault (List Value) :=
  let xs := w.shown c.view
  let ahead := c.length - c.position
  match c.isDone, w.changed? c with
  | true, _ => .ok []
  | false, some fault => .error fault
  | false, none =>
    if !c.isReversed then .ok (xs.drop c.position)
    else if xs.length < ahead then .ok []
    else .ok (xs.take ahead).reverse

end Toolwright.World

/-! ## Computations -/

namespace Toolwright

set_option autoImplicit false

/-- A computation on a world; what it did before it failed remains. -/
abbrev Run := ExceptT Fault (StateM World)

namespace Run

/-- A pure computation that may fail. -/
def lift {α : Type} (r : Except Fault α) : Run α := liftM r

def world : Run World := get

def build {α : Type} (b : Build α) : Run α := do
  let w ← world
  let (a, marks) ← lift (b.run w.marks)
  modify fun w => { w with marks }
  return a

/-- Keeps a record of at least the level of the world. The handler words it at once and passes on
what fails there, where other handlers would report it and go on. -/
def note (logger : String) (level : Int) (message : Run String) : Run Unit := do
  if (← world).logFrom ≤ level then
    let text ← message
    modify fun w => { w with log := w.log ++ [⟨logger, level, text⟩] }

def log (notices : List Notice) : Run Unit :=
  notices.forM fun n => note n.logger n.level (lift n.message)

def newCell (v : Value) : Run Nat :=
  modifyGet fun w => (w.cells.length, { w with cells := w.cells ++ [v] })

def kept (v : Value) : Run Value := do return .opaqueRef (.place (.cell (← newCell v)))

def addObject (c : ClassRef) (attributes : Option Nat) : Run Value :=
  modifyGet fun w => (.opaqueRef (.object w.objects.length),
    { w with objects := w.objects ++ [⟨c, attributes, []⟩] })

def objectOf (cls : Nat) (attributes : Named) : Run Value := do
  addObject (.made cls) (some (← newCell (.ofRows attributes)))

mutual

/-- The value with each container that can change in a cell of its own. -/
def share : Value → Run Value
  | .list xs => do kept (.list (← shareItems xs))
  | .set xs => do kept (.set (← shareItems xs))
  | .dict rows => do kept (.dict (← shareRows rows))
  | .tuple xs => do return .tuple (← shareItems xs)
  | .mapping rows => do return .mapping (← shareRows rows)
  | .record shape fields => do objectOf shape.cls (shape.fields.zip (← shareItems fields))
  | v => return v

def shareItems : List Value → Run (List Value)
  | [] => return []
  | x :: xs => do
    let x ← share x
    return x :: (← shareItems xs)

def shareRows : List (Value × Value) → Run (List (Value × Value))
  | [] => return []
  | (k, v) :: rows => do
    let v ← share v
    return (k, v) :: (← shareRows rows)

end

def literal (l : Literal) : Run Value := do share (← build l.build)

def literals (ls : List Literal) : Run (List Value) := ls.mapM literal

def literalRows (rows : Literal.Rows) : Run Named := do
  return Table.ofRows (← rows.mapM fun row => do return (row.1, ← literal row.2))

def look (v : Value) : Run Value := do return (← world).followed v

def newView (part : Part) (v : Value) : Run Value := do
  let isMapping := (← world).classOf v == .builtIn .mapping
  let kind : Kind := if isMapping then .mappingView part else .view part
  modifyGet fun w => (.opaqueRef (.view kind w.views.length),
    { w with views := w.views ++ [⟨v, part⟩] })

def newCursor (name : String) (view : View) (isReversed : Bool := false) : Run Value :=
  modifyGet fun w => (.opaqueRef (.cursor (.iterator name) w.cursors.length),
    { w with cursors := w.cursors ++ [⟨view, isReversed, (w.shown view).length, 0, false⟩] })

/-- The items that a cursor has still to give; it moves by one of them, and may be done then.
-/
def advance (id : Nat) (isDone : List Value → Bool) : Run (List Value) := do
  let w ← world
  match w.cursors[id]? with
  | none => return []
  | some c =>
    let xs ← lift (w.remaining c)
    let moved := { c with position := c.position + 1, isDone := c.isDone || isDone xs }
    modify fun w => { w with cursors := w.cursors.set id moved }
    return xs

def next? (id : Nat) : Run (Option Value) := do return (← advance id List.isEmpty).head?

/-- The items of a value; a cursor gives what it has still to give and is done then. -/
def iterate (v : Value) : Run (List Value) := do
  let w ← world
  match v with
  | .opaqueRef (.view _ id) => return ((w.views[id]?).map w.shown).getD []
  | .opaqueRef (.cursor _ id) => advance id fun _ => true
  | v => lift (w.followed v).items

def newHandle (function : Function) (bound : Option Value) : Run Value :=
  modifyGet fun w => (.opaqueRef (.routine w.handles.length),
    { w with handles := w.handles ++ [⟨function, bound⟩] })

def newObject (c : ClassRef) : Run Value := do
  let w ← world
  let isOpen := (w.lineage c).any fun
    | .made n => ((w.classes[n]?).map (·.isOpen)).getD false
    | .builtIn _ => false
  addObject c (← if isOpen then some <$> newCell (.dict []) else pure none)

def newClass (cls : HostClass) : Run Nat :=
  modifyGet fun w => (w.classes.length, { w with classes := w.classes ++ [cls] })

def keepDefinition (d : Definition Body) : Run Value := do
  let functions (scope : Scope) (helpers : List (String × Body)) : Run Value := do
    kept (.ofRows (← helpers.mapM fun h => do return (h.1, ← newHandle (.body scope h.2) none)))
  let block ← match d.block with
    | some b => newHandle (.body .ofInstance b) none
    | none => pure .null
  let ofInstance ← functions .ofInstance d.instanceHelpers
  let helpers ← objectOf Shape.helperTable.cls
    [("instance", ofInstance), ("class_scope", ← functions .ofClass d.classHelpers)]
  let params ← share (.list (d.params.map ParamSpec.toValue))
  objectOf definitionClass [("_name", ← share d.name), ("_description", ← share d.description),
    ("_params", params), ("_execute_block", block), ("_helper_methods", helpers)]

end Run

end Toolwright
