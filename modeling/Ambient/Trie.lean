/-!
# Tables of numbered entries

A trie keeps at most one entry for each number.  Its branches follow the path
of the number, which halves it at every step, so that entries are found without
passing all the others.
-/

namespace Ambient

inductive Trie (Value : Type) where
  | leaf
  | node (here : Option Value) (left right : Trie Value)

namespace Trie

variable {Value : Type}

/-- The path of a number, for at least as much fuel as the number. -/
def pathFrom : Nat → Nat → List Bool
  | 0, _ => []
  | _ + 1, 0 => []
  | fuel + 1, number + 1 => (number % 2 == 0) :: pathFrom fuel (number / 2)

def path (number : Nat) : List Bool :=
  pathFrom number number

/-- The number at the end of a path. -/
def numberOf : List Bool → Nat
  | [] => 0
  | even :: rest => 2 * numberOf rest + (if even then 1 else 2)

theorem numberOf_pathFrom {fuel number : Nat} (enough : number ≤ fuel) :
    numberOf (pathFrom fuel number) = number := by
  induction fuel generalizing number with
  | zero =>
      have zero : number = 0 := by omega
      subst zero
      rfl
  | succ fuel ih =>
      cases number with
      | zero => rfl
      | succ number =>
          have half := ih (show number / 2 ≤ fuel by omega)
          simp only [pathFrom, numberOf, half]
          cases Nat.mod_two_eq_zero_or_one number <;> simp [*] <;> omega

theorem path_injective {first second : Nat} (same : path first = path second) :
    first = second := by
  have numbers := congrArg numberOf same
  simpa [path, numberOf_pathFrom] using numbers

def findAt : Trie Value → List Bool → Option Value
  | .leaf, _ => none
  | .node here _ _, [] => here
  | .node _ left _, true :: path => left.findAt path
  | .node _ _ right, false :: path => right.findAt path

def assignAt (value : Option Value) : Trie Value → List Bool → Trie Value
  | .leaf, [] => .node value .leaf .leaf
  | .leaf, true :: path => .node none (assignAt value .leaf path) .leaf
  | .leaf, false :: path => .node none .leaf (assignAt value .leaf path)
  | .node _ left right, [] => .node value left right
  | .node here left right, true :: path =>
      .node here (assignAt value left path) right
  | .node here left right, false :: path =>
      .node here left (assignAt value right path)

theorem findAt_assignAt (value : Option Value) (trie : Trie Value)
    (path other : List Bool) :
    (assignAt value trie path).findAt other =
      if path = other then value else trie.findAt other := by
  induction path generalizing trie other with
  | nil =>
      cases trie <;> cases other with
      | nil => simp [assignAt, findAt]
      | cons first rest => cases first <;> simp [assignAt, findAt]
  | cons bit path ih =>
      cases trie <;> cases bit <;> cases other with
      | nil => simp [assignAt, findAt]
      | cons first rest => cases first <;> simp [assignAt, findAt, ih]

def find? (trie : Trie Value) (number : Nat) : Option Value :=
  trie.findAt (path number)

/-- Store an entry under a number, or leave nothing there. -/
def assign (trie : Trie Value) (number : Nat) (value : Option Value) : Trie Value :=
  assignAt value trie (path number)

def values : Trie Value → List Value
  | .leaf => []
  | .node here left right => here.toList ++ (left.values ++ right.values)

@[simp] theorem find?_leaf (number : Nat) : (leaf : Trie Value).find? number = none :=
  rfl

@[simp] theorem find?_assign (trie : Trie Value) (number other : Nat)
    (value : Option Value) :
    (trie.assign number value).find? other =
      if number = other then value else trie.find? other := by
  unfold assign find?
  rw [findAt_assignAt]
  by_cases same : number = other
  · simp [same]
  · have distinct : path number ≠ path other := fun equal => same (path_injective equal)
    simp [same, distinct]

/-- What was stored under the path gives way to the new entry, and the others stay. -/
theorem values_assignAt (value : Option Value) (trie : Trie Value) (path : List Bool) :
    ((trie.findAt path).toList ++ (assignAt value trie path).values).Perm
      (value.toList ++ trie.values) := by
  induction path generalizing trie with
  | nil =>
      cases trie with
      | leaf => simp [assignAt, findAt, values]
      | node here left right =>
          simp only [assignAt, findAt, values]
          exact List.perm_append_comm_assoc _ _ _
  | cons bit path ih =>
      cases trie with
      | leaf =>
          have inner := ih leaf
          cases bit <;> simpa [assignAt, findAt, values] using inner
      | node here left right =>
          cases bit with
          | true =>
              have inner := (ih left).append_right right.values
              simp only [assignAt, findAt, values, List.append_assoc] at inner ⊢
              exact (List.perm_append_comm_assoc _ _ _).trans
                ((inner.append_left here.toList).trans (List.perm_append_comm_assoc _ _ _))
          | false =>
              have inner := (ih right).append_left (here.toList ++ left.values)
              simp only [assignAt, findAt, values, List.append_assoc] at inner ⊢
              have front {entries : List Value} (entry : Option Value) :
                  (entry.toList ++ (here.toList ++ (left.values ++ entries))).Perm
                    (here.toList ++ (left.values ++ (entry.toList ++ entries))) :=
                (List.perm_append_comm_assoc _ _ _).trans
                  ((List.perm_append_comm_assoc _ _ _).append_left here.toList)
              exact (front _).trans (inner.trans (front _).symm)

theorem values_assign (value : Option Value) (trie : Trie Value) (number : Nat) :
    ((trie.find? number).toList ++ (trie.assign number value).values).Perm
      (value.toList ++ trie.values) :=
  values_assignAt value trie (path number)

end Trie

end Ambient
