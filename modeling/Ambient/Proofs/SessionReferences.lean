import Ambient.Proofs.Custody
import Ambient.Script.Futures
import Mathlib.Data.List.Perm.Basic

/-!
# What a session refers to

The items in the registers refer to chains by their snapshots, handles by their crossers,
and a future by the layers and the handles of all that it awaits.  A future in a register
holds no handle, and one that a thread keeps holds no more than its instructions will end.
-/

namespace Ambient.Script

/-! ## Instructions -/

namespace Instruction

/-- Whether all handles have ended after the instructions, from where some are held.  Only
a future that stays on its thread has instructions about handles. -/
def balanced (bound : Bool) : Nat → List Instruction → Bool
  | held, [] => held = 0
  | held, .hold _ _ :: rest => bound && balanced bound (held + 1) rest
  | 0, .unhold :: _ => false
  | held + 1, .unhold :: rest => bound && balanced bound held rest
  | held, .run _ _ :: rest => balanced bound held rest
  | held, .pause :: rest => balanced bound held rest
  | held, .await _ :: rest => balanced bound held rest

/-- Without instructions about handles none is held. -/
theorem eq_zero_of_balanced {rest : List Instruction} {held : Nat}
    (fine : balanced false held rest = true) : held = 0 := by
  induction rest generalizing held with
  | nil => simpa [balanced] using fine
  | cons instruction rest ih =>
      cases instruction with
      | run label step => exact ih fine
      | pause => exact ih fine
      | await register => exact ih fine
      | hold kind register => simp [balanced] at fine
      | unhold => cases held <;> simp [balanced] at fine

mutual

theorem balanced_ofStep (bound : Bool) (label : List String) (step : Step) {held : Nat}
    {rest : List Instruction} (after : balanced bound held rest = true) :
    balanced bound held (ofStep bound label step ++ rest) = true := by
  cases step with
  | await register => cases bound <;> exact after
  | hold kind register body =>
      cases bound with
      | false => exact after
      | true =>
          have ended : balanced true (held + 1) (.unhold :: rest) = true := after
          simpa [ofStep, balanced] using balanced_ofSteps true label 0 body ended
  | _ => exact after

theorem balanced_ofSteps (bound : Bool) (label : List String) (index : Nat) (steps : List Step)
    {held : Nat} {rest : List Instruction} (after : balanced bound held rest = true) :
    balanced bound held (ofSteps bound label index steps ++ rest) = true := by
  cases steps with
  | nil => exact after
  | cons step others =>
      rw [ofSteps, List.append_assoc]
      exact balanced_ofStep bound _ step (balanced_ofSteps bound label (index + 1) others after)

end

end Instruction

/-! ## Futures -/

namespace Strand

def Balanced (bound : Bool) (strand : Strand) : Prop :=
  Instruction.balanced bound strand.held.length strand.rest = true

def references (strand : Strand) : List Chain :=
  strand.held.flatMap Handle.references ++ strand.layers.map Snapshot.chain

theorem Balanced.held_eq_nil {strand : Strand} (balanced : strand.Balanced false) :
    strand.held = [] :=
  List.length_eq_zero_iff.mp (Instruction.eq_zero_of_balanced balanced)

end Strand

namespace Future

/-- What is awaited comes out of a register, so it holds nothing. -/
structure Balanced (bound : Bool) (future : Future) : Prop where
  outer : future.outer.Balanced bound
  awaited : ∀ strand ∈ future.awaited, strand.Balanced false

def references (future : Future) : List Chain :=
  future.strands.flatMap Strand.references

variable {future : Future} {bound : Bool}

theorem balanced_ofSteps (bound : Bool) (snapshot : Snapshot) (body : List Step) :
    (ofSteps bound snapshot body).Balanced bound := by
  have all : Instruction.balanced bound 0 (Instruction.ofSteps bound [] 0 body ++ []) = true :=
    Instruction.balanced_ofSteps bound [] 0 body rfl
  rw [List.append_nil] at all
  exact ⟨all, nofun⟩

theorem references_perm (future : Future) : future.references.Perm
    (future.snapshots.map Snapshot.chain ++ future.held.flatMap Handle.references) := by
  have layers : future.snapshots.map Snapshot.chain =
      future.strands.flatMap fun strand => strand.layers.map Snapshot.chain :=
    List.map_flatMap
  have held : (future.held.flatMap Handle.references).Perm
      (future.strands.flatMap fun strand => strand.held.flatMap Handle.references) := by
    rw [Future.held, List.flatMap_assoc]
    exact (List.reverse_perm future.strands).flatMap_right _
  rw [layers]
  refine (List.flatMap_append_perm _ _ _).symm.trans (List.perm_append_comm.trans ?_)
  exact held.symm.append_left _

theorem references_alone (strand : Strand) (rest : List Chain) :
    references ⟨strand, []⟩ ++ rest =
      strand.held.flatMap Handle.references ++ (strand.layers.map Snapshot.chain ++ rest) := by
  simp [references, strands, Strand.references]

theorem layer_mem {snapshot : Snapshot} (member : snapshot ∈ future.outer.layers) :
    snapshot.chain ∈ future.references :=
  List.mem_flatMap.mpr ⟨future.outer, .head _,
    List.mem_append_right _ (List.mem_map_of_mem member)⟩

theorem references_bare (future : Future) : future.references.Perm
    (future.bare.references ++ future.outer.layers.map Snapshot.chain) := by
  have parts : future.references = future.outer.held.flatMap Handle.references ++
      (future.outer.layers.map Snapshot.chain ++
        future.awaited.flatMap Strand.references) := by
    simp [references, strands, Strand.references]
  have bare : future.bare.references = future.outer.held.flatMap Handle.references ++
      future.awaited.flatMap Strand.references := by
    simp [Future.bare, references, strands, Strand.references]
  rw [parts, bare, List.append_assoc]
  exact List.perm_append_comm.append_left _

/-- What is awaited comes in front of what awaits it. -/
theorem references_awaiting (strand : Strand) (waiting : Future) (rest : List Chain) :
    (references ⟨strand, waiting.strands⟩ ++ rest).Perm (waiting.references ++
      (strand.held.flatMap Handle.references ++ (strand.layers.map Snapshot.chain ++ rest))) := by
  have whole : references ⟨strand, waiting.strands⟩ =
      strand.references ++ waiting.references := List.flatMap_cons
  have regrouped : strand.references ++ rest =
      strand.held.flatMap Handle.references ++ (strand.layers.map Snapshot.chain ++ rest) :=
    List.append_assoc ..
  rw [whole, List.append_assoc, ← regrouped]
  exact List.perm_append_comm_assoc _ _ _

/-- A future that holds nothing refers to chains by its layers alone. -/
theorem Balanced.references_eq (balanced : future.Balanced false) :
    future.references = future.snapshots.map Snapshot.chain := by
  rw [references, snapshots, List.map_flatMap]
  refine List.flatMap_congr fun strand member => ?_
  have none : strand.held = [] := by
    rcases List.mem_cons.mp member with rfl | awaited
    · exact balanced.outer.held_eq_nil
    · exact (balanced.awaited strand awaited).held_eq_nil
  rw [Strand.references, none, List.flatMap_nil, List.nil_append]

end Future

/-! ## Sessions -/

namespace Item

def references (item : Item) : List Chain :=
  item.snapshots.map Snapshot.chain

/-- The snapshot that an item shows is one that it keeps, unless it is empty. -/
theorem snapshot?_mem (item : Item) {taken : Snapshot} (shows : item.snapshot? = some taken) :
    taken.chain = [] ∨ taken.chain ∈ item.references := by
  cases item with
  | snapshot own =>
      obtain rfl := Option.some.inj shows
      exact .inr (.head _)
  | point built =>
      obtain rfl := Option.some.inj shows
      exact .inr (.head _)
  | wrapped callable =>
      obtain rfl := Option.some.inj shows
      exact .inr (.head _)
  | future left =>
      obtain rfl := Option.some.inj shows
      obtain ⟨⟨layers, rest, value, held⟩, awaited⟩ := left
      cases layers with
      | nil => exact .inl rfl
      | cons layer layers => exact .inr (.head _)
  | _ => contradiction

/-- A future in a register has no instructions about handles. -/
def Balanced : Item → Prop
  | .future left => left.Balanced false
  | .raw left => left.Balanced false
  | _ => True

end Item

namespace Session

/-- What named handles refer to. -/
def handleReferences (named : List (String × Handle)) : List Chain :=
  named.flatMap fun entry => entry.2.references

def futureReferences (futures : Table String Future) : List Chain :=
  futures.values.flatMap Future.references

/-- All that a session refers to. -/
def references (session : Session) : List Chain :=
  session.registers.values.flatMap Item.references ++
    (session.handles.values.flatMap handleReferences ++
      (session.futures.values.flatMap futureReferences ++
        session.forgotten.flatMap Handle.references))

/-- Nothing is there twice under one name, and futures end the handles they hold. -/
structure Neat (session : Session) : Prop where
  registers : session.registers.keys.Nodup
  items : ∀ item ∈ session.registers.values, item.Balanced
  handles : session.handles.keys.Nodup
  named : ∀ named ∈ session.handles.values, (named.map (·.1)).Nodup
  futures : session.futures.keys.Nodup
  kept : ∀ futures ∈ session.futures.values,
    futures.keys.Nodup ∧ ∀ future ∈ futures.values, future.Balanced true

theorem start_neat : start.Neat :=
  ⟨List.nodup_nil, nofun, List.nodup_nil, nofun, List.nodup_nil, nofun⟩

variable {session : Session}

theorem Neat.item (neat : session.Neat) {register : String} {item : Item}
    (found : session.registers.find? register = some item) : item.Balanced :=
  neat.items item (Table.mem_values_of_find? found)

theorem item_mem {register : String} {item : Item}
    (found : session.registers.find? register = some item) {chain : Chain}
    (member : chain ∈ item.references) : chain ∈ session.references :=
  List.mem_append_left _ (List.mem_flatMap.mpr ⟨item, Table.mem_values_of_find? found, member⟩)

theorem Neat.handlesOf (neat : session.Neat) (thread : ThreadId) :
    ((session.handlesOf thread).map (·.1)).Nodup := by
  unfold Session.handlesOf
  cases found : session.handles.find? thread with
  | none => exact List.nodup_nil
  | some named => exact neat.named named (Table.mem_values_of_find? found)

theorem Neat.futuresOf (neat : session.Neat) (thread : ThreadId) :
    (session.futuresOf thread).keys.Nodup ∧
      ∀ future ∈ (session.futuresOf thread).values, future.Balanced true := by
  unfold Session.futuresOf
  cases found : session.futures.find? thread with
  | none => exact ⟨List.nodup_nil, nofun⟩
  | some futures => exact neat.kept futures (Table.mem_values_of_find? found)

/-- A part of a list changes, and what is lost and gained with it comes to the front. -/
theorem exchange {lost gained old new back : List Chain} (front : List Chain)
    (changed : (lost ++ new).Perm (gained ++ old)) :
    (lost ++ (front ++ (new ++ back))).Perm (gained ++ (front ++ (old ++ back))) := by
  refine (List.perm_append_comm_assoc _ _ _).trans ?_
  refine List.Perm.trans (List.Perm.append_left front ?_) (List.perm_append_comm_assoc _ _ _)
  rw [← List.append_assoc, ← List.append_assoc]
  exact changed.append_right back

/-- What someone else loses with such a change and gains with it in turn. -/
theorem trade {lost gained old new given left : List Chain}
    (changed : (lost ++ new).Perm (gained ++ old)) (moved : (lost ++ given).Perm (gained ++ left)) :
    (old ++ given).Perm (new ++ left) := by
  rw [List.perm_iff_count] at changed moved ⊢
  intro chain
  have one := changed chain
  have two := moved chain
  simp only [List.count_append] at one two ⊢
  omega

/-! ### Registers -/

/-- An item is put into a register and what was there is taken out. -/
theorem references_insert (session : Session) (register : String) (item : Item) :
    (((session.registers.find? register).toList.flatMap Item.references) ++
      references { session with registers := session.registers.insert register item }).Perm
      (item.references ++ session.references) := by
  have inserted := (session.registers.values_insert register item).flatMap_right Item.references
  rw [List.flatMap_append, List.flatMap_cons] at inserted
  exact exchange [] inserted

theorem Neat.insert (neat : session.Neat) (register : String) {item : Item}
    (fine : item.Balanced) :
    Neat { session with registers := session.registers.insert register item } :=
  { neat with
    registers := Table.nodup_keys_insert neat.registers register item
    items := fun other member => by
      rcases Table.mem_values_of_insert member with rfl | old
      · exact fine
      · exact neat.items other old }

theorem references_erase (neat : session.Neat) (register : String) :
    (((session.registers.find? register).toList.flatMap Item.references) ++
      references { session with registers := session.registers.erase register }).Perm
      session.references := by
  have erased := (Table.values_erase neat.registers register).flatMap_right Item.references
  rw [List.flatMap_append, ← List.nil_append (List.flatMap _ session.registers.values)] at erased
  exact exchange [] erased

theorem Neat.erase (neat : session.Neat) (register : String) :
    Neat { session with registers := session.registers.erase register } :=
  { neat with
    registers := Table.nodup_keys_erase neat.registers register
    items := fun other member => neat.items other <|
      (Table.values_erase neat.registers register).mem_iff.mp (List.mem_append_right _ member) }

/-! ### Handles -/

theorem references_setHandles (session : Session) (thread : ThreadId)
    (named : List (String × Handle)) :
    (handleReferences (session.handlesOf thread) ++
      (session.setHandles thread named).references).Perm
      (handleReferences named ++ session.references) := by
  have inserted := (session.handles.values_insert thread named).flatMap_right handleReferences
  have old : (session.handles.find? thread).toList.flatMap handleReferences =
      handleReferences (session.handlesOf thread) := by
    unfold handlesOf
    cases session.handles.find? thread <;> simp [handleReferences]
  rw [List.flatMap_append, List.flatMap_cons, old] at inserted
  exact exchange _ inserted

theorem Neat.setHandles (neat : session.Neat) (thread : ThreadId) {named : List (String × Handle)}
    (distinct : (named.map (·.1)).Nodup) : (session.setHandles thread named).Neat :=
  { neat with
    handles := Table.nodup_keys_insert neat.handles thread named
    named := fun other member => by
      rcases Table.mem_values_of_insert member with rfl | old
      · exact distinct
      · exact neat.named other old }

/-! ### Futures -/

theorem references_setFutures (session : Session) (thread : ThreadId)
    (futures : Table String Future) :
    (futureReferences (session.futuresOf thread) ++
      (session.setFutures thread futures).references).Perm
      (futureReferences futures ++ session.references) := by
  have inserted := (session.futures.values_insert thread futures).flatMap_right futureReferences
  have old : (session.futures.find? thread).toList.flatMap futureReferences =
      futureReferences (session.futuresOf thread) := by
    unfold futuresOf
    cases session.futures.find? thread <;> simp [futureReferences, Table.values, Table.empty]
  rw [List.flatMap_append, List.flatMap_cons, old] at inserted
  simp only [references, setFutures, ← List.append_assoc (List.flatMap Item.references _)]
  exact exchange _ inserted

theorem Neat.setFutures (neat : session.Neat) (thread : ThreadId) {futures : Table String Future}
    (distinct : futures.keys.Nodup) (fine : ∀ future ∈ futures.values, future.Balanced true) :
    (session.setFutures thread futures).Neat :=
  { neat with
    futures := Table.nodup_keys_insert neat.futures thread futures
    kept := fun other member => by
      rcases Table.mem_values_of_insert member with rfl | old
      · exact ⟨distinct, fine⟩
      · exact neat.kept other old }

/-! ### Forgotten handles -/

theorem references_forget (session : Session) (handle : Handle) :
    (references { session with forgotten := handle :: session.forgotten }).Perm
      (handle.references ++ session.references) := by
  have more : ([] ++ (handle :: session.forgotten).flatMap Handle.references).Perm
      (handle.references ++ session.forgotten.flatMap Handle.references) := .refl _
  have all : ([] ++ (_ ++ (_ ++ []))).Perm (_ ++ (_ ++ (_ ++ []))) :=
    exchange (session.registers.values.flatMap Item.references ++
      (session.handles.values.flatMap handleReferences ++
        session.futures.values.flatMap futureReferences)) more
  simpa [references] using all

end Session

end Ambient.Script
