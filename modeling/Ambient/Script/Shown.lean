import Ambient.Script.Item

/-!
# Descriptions of objects

Scopes, bridges, snapshots and what was wrapped describe themselves as named
structures of a few fields, on one line or on a line for each field.
-/

namespace Ambient.Script

inductive Shown where
  | number (value : Nat)
  | flag (value : Bool)
  | quoted (text : String)
  | structured (name : String) (fields : List (String × Shown))

namespace Shown

mutual

/-- The description on one line. -/
def line : Shown → String
  | .number value => toString value
  | .flag value => toString value
  | .quoted text => "\"" ++ text ++ "\""
  | .structured name fields => name ++ " \x7b " ++ fieldLine fields ++ " \x7d"

def fieldLine : List (String × Shown) → String
  | [] => ""
  | [(name, value)] => name ++ ": " ++ value.line
  | (name, value) :: rest => name ++ ": " ++ value.line ++ ", " ++ fieldLine rest

end

mutual

/-- The description with a line for each field, behind a margin. -/
def lines (margin : String) : Shown → String
  | .number value => toString value
  | .flag value => toString value
  | .quoted text => "\"" ++ text ++ "\""
  | .structured name fields =>
      name ++ " \x7b\n" ++ fieldLines (margin ++ "    ") fields ++ margin ++ "\x7d"

def fieldLines (margin : String) : List (String × Shown) → String
  | [] => ""
  | (name, value) :: rest =>
      margin ++ name ++ ": " ++ value.lines margin ++ ",\n" ++
        fieldLines margin rest

end

def text (shown : Shown) (pretty : Bool) : String :=
  if pretty then shown.lines "" else shown.line

def ofType (type : CaptorType) : Shown :=
  .quoted type.name

def ofScope (scope : Scope) : Shown :=
  match scope.kind with
  | .capture =>
      .structured "ScopedCapture"
        [("captor", ofType scope.type), ("has_previous", .flag scope.previous.isSome)]
  | .crossing =>
      .structured "CrossThreads"
        [("captor", ofType scope.type), ("present", .flag scope.installed.isSome)]

def ofCrosser (scope : CrosserScope) : Shown :=
  .structured "AutoThreadCrosser"
    [("captor", ofType scope.crosser.type), ("depth", .number (Chain.depth scope.node))]

def ofBridge (bridge : Bridge) : Shown :=
  .structured "ThreadBridge"
    [("captor", ofType bridge.type), ("present", .flag bridge.captor.isSome)]

def ofSnapshot (snapshot : Snapshot) : Shown :=
  .structured "Snapshot" [("depth", .number snapshot.depth)]

def ofPoint (point : EntryPoint) : Shown :=
  .structured "OverridePoint" [("snapshot", ofSnapshot point.snapshot)]

/-- What was wrapped is described by the kind of what is inside. -/
def ofWrapped (snapshot : Snapshot) (kind : String) : Shown :=
  .structured "Wrapped" [("snapshot", ofSnapshot snapshot), ("inner", .quoted kind)]

def ofHandle : Handle → Shown
  | .slot scope => ofScope scope
  | .crosser scope => ofCrosser scope

end Shown

end Ambient.Script
