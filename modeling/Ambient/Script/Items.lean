import Ambient.Script.Interpreter
import Ambient.Script.Shown

/-!
# Items in scripts

Bridges, snapshots and override points are built from what is in scope.  What
was wrapped is looked at and taken apart, layer by layer.
-/

namespace Ambient.Script

namespace Item

/-- The word for what an item is. -/
def kind : Item → String
  | .captor _ _ => "captor"
  | .bridge _ => "bridge"
  | .snapshot _ => "snap"
  | .point _ => "point"
  | .wrapped callable => callable.kind
  | .plain _ => "plain"
  | .future _ => "future"
  | .raw _ => "raw"

/-- The description of an item that has a snapshot. -/
def shown (item : Item) (kind : String) (shownSnapshot : Snapshot) : Shown :=
  match item with
  | .snapshot taken => Shown.ofSnapshot taken
  | .point built => Shown.ofPoint built
  | _ => Shown.ofWrapped shownSnapshot kind

/-- What an item that has a snapshot tells about itself. -/
def snapshotLook (item : Item) (kind : String) (taken : Snapshot) (pretty : Bool) :
    Value :=
  .record [("kind", .text kind), ("depth", .int taken.depth),
    ("empty", .bool taken.isEmpty),
    ("debug", .text ((item.shown kind taken).text pretty))]

/-- What an item tells about itself. -/
def look (item : Item) (pretty : Bool) : Value :=
  match item with
  | .captor id _ =>
      .record [("kind", .text item.kind), ("captor", .text id)]
  | .bridge built =>
      .record [("kind", .text item.kind), ("captor", .ofCaptor? built.captor),
        ("debug", .text ((Shown.ofBridge built).text pretty))]
  | _ =>
      match item.snapshot? with
      | none => .record [("kind", .text item.kind)]
      | some taken => item.snapshotLook item.kind taken pretty

end Item

/-- Take an item out of its register and go on with it, unless it does not fit,
or is a shared callable that is being called. -/
def taking (place : Place) (register : String) (fits : Item → Bool)
    (next : Item → Run Value) : Run Value := do
  match ← Run.item? register with
  | none => return .error .register
  | some item =>
      if fits item then
        match item with
        | .wrapped callable =>
            if place.busy callable then
              return .error .busy
            else
              Run.unbind register
              next item
        | _ =>
            Run.unbind register
            next item
      else
        return .error .register

namespace ItemStep

def bindNull (name : String) (item : Item) : Run Value := do
  Run.bind name item
  return .null

/-- A wrapped item stays as it is; a plain callable gets one more layer. -/
def runRewrap (name : String) : Item → Run Value
  | .plain plain => do
      let snapshot ← Snapshot.capture
      let identity := (← Run.session).wrapped
      Run.modify fun session => { session with wrapped := identity + 1 }
      bindNull name (.wrapped ⟨identity, true, snapshot, plain.layers, plain.action⟩)
  | item => bindNull name item

def canRewrap : Item → Bool
  | .wrapped _ => true
  | .plain _ => true
  | .future _ => true
  | _ => false

def canBecomePlain : Item → Bool
  | .wrapped callable => callable.consumable
  | _ => false

def canUnwrap : Item → Bool
  | .wrapped callable => callable.consumable
  | .future _ => true
  | _ => false

def canWrapFuture : Item → Bool
  | .future _ => true
  | .raw _ => true
  | _ => false

/-- A plain callable still runs inside the layers it had when wrapped. -/
def runIntoPlain (name : String) : Item → Run Value
  | .wrapped callable =>
      bindNull name (.plain ⟨callable.layers, callable.action⟩)
  | item => bindNull name item

/-- Remove the outermost layer. -/
def runUnwrap (name : String) : Item → Run Value
  | .wrapped callable => do
      callable.snapshot.drop
      bindNull name (.plain ⟨callable.inner, callable.action⟩)
  | .future future => do
      future.snapshot.drop
      bindNull name (.raw future.unwrapped)
  | item => bindNull name item

/-- Add a layer with the snapshot of now. -/
def runWrapFuture (name : String) : Item → Run Value
  | .future future => do
      bindNull name (.future (future.wrapIn (← Snapshot.capture)))
  | .raw future => do
      bindNull name (.future (future.wrapIn (← Snapshot.capture)))
  | item => bindNull name item

def equality (equal : Bool) : Value :=
  .list [.bool equal, .bool (!equal)]

def runLook (register : String) (pretty : Bool) : Run Value := do
  match (← Run.futures).find? register with
  | some future =>
      return (Item.future future).snapshotLook "local" future.snapshot pretty
  | none =>
      match ← Run.item? register with
      | none => return .error .register
      | some item => return item.look pretty

def run (place : Place) : ItemStep → Run Value
  | .bridge type name =>
      match Channel.ofLabel? type with
      | none => return .error .type
      | some channel => do
          let bridge ← Bridge.build channel.captorType
          Run.bind name (.bridge bridge)
          return .ofCaptor? bridge.captor
  | .bridgeFrom handle name => do
      match ← Run.handle? handle with
      | some (.slot scope) =>
          match scope.kind with
          | .capture => bindNull name (.bridge (Bridge.ofScope scope))
          | .crossing => return .error .handle
      | _ => return .error .handle
  | .snapshot name => do bindNull name (.snapshot (← Snapshot.capture))
  | .emptySnapshot name => bindNull name (.snapshot .empty)
  | .point name => do bindNull name (.point (← EntryPoint.build))
  | .emptyPoint name => bindNull name (.point ⟨.empty⟩)
  | .snapshotOf register name => do
      match (← Run.item? register).bind Item.snapshot? with
      | none => return .error .register
      | some taken => bindNull name (.snapshot (← taken.clone))
  | .equal left right => do
      match ← Run.item? left, ← Run.item? right with
      | some (.snapshot left), some (.snapshot right) =>
          return equality (left = right)
      | some (.point left), some (.point right) => return equality (left = right)
      | _, _ => return .error .register
  | .look register pretty => runLook register pretty
  | .clone register name => do
      match ← Run.item? register with
      | none => return .error .register
      | some item =>
          if item.clonable then
            item.hold
            bindNull name item
          else
            return .error .register
  | .rewrap register name => taking place register canRewrap (runRewrap name)
  | .intoPlain register name =>
      taking place register canBecomePlain (runIntoPlain name)
  | .unwrap register name => taking place register canUnwrap (runUnwrap name)
  | .wrapFuture register name =>
      taking place register canWrapFuture (runWrapFuture name)

end ItemStep

end Ambient.Script
