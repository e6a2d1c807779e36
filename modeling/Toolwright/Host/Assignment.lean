import Toolwright.Host.Access

/-!
# Setting attributes

An attribute is set on a value or on a class, or taken away from it. A field is changed where it is
kept; a made class can take over setting.
-/

namespace Toolwright

set_option autoImplicit false

/-- What is said when a view of another attribute is to be changed. -/
def World.fixedView (w : World) (v : Value) (name lacking : String) : Fault :=
  .notWritable ("property " ++ Text.quoted name ++ " of " ++
    Text.quoted (w.qualifiedName (w.classOf v)) ++ " object has no " ++ lacking)

namespace Machine

def writeCell (n : Nat) (name : String) (x : Value) : Run Unit :=
  modify fun w => w.store (.cell n)
    (.dict (Table.insertBy Value.same (.str name) x ((w.contents (.cell n)).rows?.getD [])))

def writeClassField (n : Nat) (name : String) (x : Value) : Run Unit := do
  match name, x with
  | "__name__", .str s =>
    if s.toList.contains '\x00' then throw .nulInClassName
    modify fun w => w.modifyClass n fun cls => { cls with name := s }
  | "__qualname__", .str s =>
    modify fun w => w.modifyClass n fun cls => { cls with qualifiedName := s }
  | "__name__", _ | "__qualname__", _ | "__bases__", _ => throw .mismatch
  | "__dict__", _ | "__text_signature__", _ =>
    throw (.notWritable ("attribute '" ++ name ++ "' of 'type' objects is not writable"))
  | "__module__", x | "__doc__", x | "__annotations__", x | "__abstractmethods__", x =>
    modify fun w => w.setAttribute n name (.value x)
  | _, _ => throw (.notWritable "readonly attribute")

/-- Sets a field of a value, of which the class that holds the field is given. -/
def writeField (holder : ClassRef) (v : Value) (name : String) (x : Value) : Run Unit := do
  let w ← Run.world
  match name, v, x with
  | "__class__", .opaqueRef (.object o), .opaqueRef (.cls c) =>
    match c with
    | .builtIn _ => throw .mismatch
    | .made _ =>
      if w.sameLayout (w.classOf v) c then
        modify fun w => { w with objects := w.objects.modify o fun obj => { obj with cls := c } }
      else throw .mismatch
  | "__class__", _, _ => throw .mismatch
  | "__dict__", .opaqueRef (.object o), .opaqueRef (.place (.cell n)) =>
    match w.contents (.cell n) with
    | .dict _ => modify fun w =>
        { w with objects := w.objects.modify o fun obj => { obj with attributes := some n } }
    | _ => throw .mismatch
  | "__dict__", v, x =>
    match ← Run.look x, ← attributeCell v with
    | .dict rows, some n => modify fun w => w.store (.cell n) (.dict rows)
    | _, _ => throw .mismatch
  | _, _, _ =>
    throw (.notWritable ("attribute '" ++ name ++ "' of " ++
      clipped 100 (w.className holder) ++ " objects is not writable"))

def plainAssign (v : Value) (name : String) (x : Value) : Run Unit := do
  let w ← Run.world
  match v, w.find? (w.classOf v) name with
  | .opaqueRef (.cls (.builtIn _)), _ => throw .mismatch
  | .opaqueRef (.cls (.made n)), some (.builtIn .type, .field ..) => writeClassField n name x
  | .opaqueRef (.cls (.made _)), some (_, .field ..) => throw .mismatch
  | .opaqueRef (.cls (.made n)), _ => modify fun w => w.setAttribute n name (.value x)
  | v, some (holder, .field ..) => writeField holder v name x
  | v, some (_, .view _) => throw (w.fixedView v name "setter")
  | .opaqueRef (.object o), some (_, .slot n slot) =>
    modify fun w => { w with objects := w.objects.modify o fun obj =>
      { obj with slots := Table.insert (n, slot) x obj.slots } }
  | v, found =>
    let cell ← match v, w.classOf v with
      | .opaqueRef (.object _), _ | .opaqueRef (.token ..), _ | .opaqueRef (.mute ..), _
      | .opaqueRef (.routine _), .builtIn .function => attributeCell v
      | _, _ => pure none
    match cell, found with
    | some n, _ => writeCell n name x
    | none, some _ => throw (.readOnly (w.kindName v) name)
    | none, none => throw (.noRoom (w.kindName v) name)

def assign (m : Machine) (v : Value) (name : String) (x : Value) : Run Unit := do
  match (← Run.world).special? v "__setattr__" with
  | some a =>
    let _ ← m.use a [.str name, x] []
    return
  | none => plainAssign v name x

def eraseOfClass (n : Nat) (name : String) : Run Unit := do
  let c : ClassRef := .made n
  let w ← Run.world
  match w.find? (.builtIn .type) name, w.own? c name with
  | some (.builtIn .type, .field ..), own =>
    match name, own with
    | "__annotations__", some _ | "__abstractmethods__", some _ => eraseOwn
    | "__annotations__", none | "__abstractmethods__", none => throw (.raised "AttributeError" name)
    | "__dict__", _ | "__text_signature__", _ =>
      throw (.notWritable ("attribute '" ++ name ++ "' of 'type' objects is not writable"))
    | "__name__", _ | "__qualname__", _ | "__bases__", _ | "__module__", _ | "__doc__", _ =>
      throw .mismatch
    | _, _ => throw (.notWritable "readonly attribute")
  | _, some _ => eraseOwn
  | _, none => throw (w.noAttribute (World.classValue c) name)
where
  eraseOwn : Run Unit :=
    modify fun w => w.modifyClass n fun cls =>
      { cls with attributes := Table.erase name cls.attributes }

def eraseField (holder : ClassRef) (v : Value) (name : String) : Run Unit := do
  match name, v with
  | "__class__", _ => throw .mismatch
  | "__dict__", .opaqueRef (.object o) =>
    let n ← Run.newCell (.dict [])
    modify fun w =>
      { w with objects := w.objects.modify o fun obj => { obj with attributes := some n } }
  | _, _ =>
    throw (.notWritable ("attribute '" ++ name ++ "' of " ++
      clipped 100 ((← Run.world).className holder) ++ " objects is not writable"))

def plainErase (v : Value) (name : String) : Run Unit := do
  let w ← Run.world
  match v, w.find? (w.classOf v) name with
  | .opaqueRef (.cls (.builtIn _)), _ => throw .mismatch
  | .opaqueRef (.cls (.made n)), _ => eraseOfClass n name
  | v, some (holder, .field ..) => eraseField holder v name
  | v, some (_, .view _) => throw (w.fixedView v name "deleter")
  | .opaqueRef (.object o), some (_, .slot n slot) =>
    if (w.slotValue? v n slot).isNone then throw (.raised "AttributeError" slot)
    modify fun w => { w with objects := w.objects.modify o fun obj =>
      { obj with slots := Table.erase (n, slot) obj.slots } }
  | v, found =>
    match w.attributeCell? v, w.setAttribute? v name, found with
    | some n, some _, _ =>
      modify fun w => w.store (.cell n)
        (.dict (((w.contents (.cell n)).rows?.getD []).filter fun row =>
          !Value.same row.1 (.str name)))
    | some _, none, _ | none, _, none => throw (.noRoom (w.kindName v) name)
    | none, _, some _ => throw (.readOnly (w.kindName v) name)

end Machine

end Toolwright
