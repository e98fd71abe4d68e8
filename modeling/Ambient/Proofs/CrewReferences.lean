import Ambient.Proofs.Custody
import Ambient.Proofs.Schedules
import Mathlib.Data.List.Perm.Basic

/-!
# What a crew refers to

All that the threads of a crew keep, hand over and have not ended refers to chains, a
forgotten handle as much as any other.  Every turn of every thread keeps the registry's
count of these references right, so what they lead to stays registered, and once they are
given up nothing does but what forgotten handles lead to.
-/

namespace Ambient

open Act (Settles)

/-! ## What a thread refers to -/

namespace Parcel

def references : Parcel → List Chain
  | .snapshot taken => [taken.chain]
  | _ => []

variable {Client : Type} {owns : Client → List Chain} {before lost : List Chain}

theorem clone_settles {parcel : Parcel} (has : ∀ chain ∈ parcel.references, chain ∈ before) :
    Settles owns (parcel.clone : Act Client Unit) before
      (fun _ => parcel.references ++ before) lost := by
  cases parcel with
  | snapshot taken => exact .hold (has taken.chain (.head _))
  | captor | bridge | nothing => exact .keep ()

theorem drop_settles (parcel : Parcel) :
    Settles owns (parcel.drop : Act Client Unit) (parcel.references ++ before)
      (fun _ => before) lost := by
  cases parcel with
  | snapshot taken => exact .release taken.chain
  | captor | bridge | nothing => exact .keep ()

end Parcel

namespace Frame

def references : Frame → List Chain
  | .handle opened _ => opened.references
  | .call _ delegation => delegation.references

variable {Client : Type} {owns : Client → List Chain} {before : List Chain}

theorem finish_settles (frame : Frame) :
    Settles owns (frame.finish : Act Client Unit) (frame.references ++ before)
      (fun _ => before) before := by
  cases frame with
  | handle opened keeping => exact opened.finish_settles
  | call scopes delegation =>
      exact delegation.finish_settles.ensuring (Scope.finishAll_settles scopes)

@[simp] theorem references_forgotten (frame : Frame) :
    frame.forgotten.references = frame.references := by
  cases frame <;> rfl

end Frame

namespace Member

def references (member : Member) : List Chain :=
  (member.parcels ++ member.handed).flatMap Parcel.references ++
    member.frames.flatMap Frame.references

variable {member : Member}

@[simp] theorem references_note (remark : Remark) :
    (member.note remark).references = member.references :=
  rfl

@[simp] theorem references_first (items : List Item) :
    (member.first items).references = member.references :=
  rfl

@[simp] theorem references_record (found : List Misuse) :
    (member.record found).references = member.references :=
  rfl

@[simp] theorem references_fall (outcome : Outcome Unit) :
    (member.fall outcome).references = member.references := by
  cases outcome <;> rfl

@[simp] theorem references_forget (place : Nat) :
    (member.forget place).references = member.references := by
  have same (frames : List Frame) (place : Nat) :
      (frames.modify place Frame.forgotten).flatMap Frame.references =
        frames.flatMap Frame.references := by
    induction frames generalizing place with
    | nil => cases place <;> rfl
    | cons frame frames ih => cases place <;> simp [ih]
  simp [references, forget, same]

theorem references_gain (parcel : Parcel) :
    (parcel.references ++ member.references).Perm (member.gain parcel).references := by
  simp only [references, gain, List.flatMap_append, List.flatMap_singleton, List.append_assoc]
  exact List.perm_append_comm_assoc _ _ _

/-- What is handed over is referred to once more. -/
theorem references_hand (parcel : Parcel) :
    (parcel.references ++ member.references).Perm
      { member with handed := member.handed ++ [parcel] }.references := by
  simp only [references, List.flatMap_append, List.flatMap_singleton, List.append_assoc]
  refine (List.perm_append_comm_assoc _ _ _).trans (List.Perm.append_left _ ?_)
  exact List.perm_append_comm_assoc _ _ _

theorem references_drop (place : Nat) :
    member.references.Perm ((member.parcel place).references ++
      { member with parcels := member.parcels.set place .nothing }.references) := by
  have taken : (member.parcels.flatMap Parcel.references).Perm ((member.parcel place).references ++
      (member.parcels.set place .nothing).flatMap Parcel.references) := by
    unfold parcel
    cases found : member.parcels[place]? with
    | none =>
        rw [List.set_eq_of_length_le (List.getElem?_eq_none_iff.mp found)]
        exact .refl _
    | some parcel =>
        obtain ⟨inside, here⟩ := List.getElem?_eq_some_iff.mp found
        have apart := (List.set_perm_cons_eraseIdx inside .nothing).flatMap_right
          Parcel.references
        have whole := (List.getElem_cons_eraseIdx_perm inside).flatMap_right Parcel.references
        rw [List.flatMap_cons] at apart whole
        rw [here] at whole
        exact whole.symm.trans (apart.symm.append_left _)
  simp only [references, List.flatMap_append, List.append_assoc]
  rw [← List.append_assoc (Parcel.references _)]
  exact taken.append_right _

theorem references_push (frame : Frame) :
    (frame.references ++ member.references).Perm (member.push frame).references := by
  simp only [references, push, List.flatMap_cons]
  exact List.perm_append_comm_assoc _ _ _

theorem references_pull {place : Nat} {frame : Frame} (found : member.frames[place]? = some frame) :
    member.references.Perm (frame.references ++ (member.pull place).references) := by
  obtain ⟨inside, here⟩ := List.getElem?_eq_some_iff.mp found
  have apart := (List.getElem_cons_eraseIdx_perm inside).flatMap_right Frame.references
  rw [List.flatMap_cons, here] at apart
  exact (apart.symm.append_left _).trans (List.perm_append_comm_assoc _ _ _)

/-! ## What the deeds do with it -/

variable {owns : Crew → List Chain} {rest lost : List Chain}

/-- A deed makes of the references of its thread those that the thread has afterwards. -/
def Upkeeps (owns : Crew → List Chain) (member : Member) (deed : Act Crew Member)
    (rest : List Chain) : Prop :=
  Settles owns deed (member.references ++ rest) (fun value => value.references ++ rest) rest

theorem upkeeps_pure {value : Member} (same : value.references = member.references) :
    member.Upkeeps owns (pure value) rest :=
  .pure value (same ▸ .refl _)

/-- What an act yields is referred to besides what was there. -/
theorem upkeeps_bind {α : Type} {act : Act Crew α} {value : α → Member}
    (more : α → List Chain)
    (settles : Settles owns act (member.references ++ rest)
      (fun result => more result ++ (member.references ++ rest)) rest)
    (gained : ∀ result, (more result ++ member.references).Perm (value result).references) :
    member.Upkeeps owns (act >>= fun result => pure (value result)) rest :=
  settles.bind fun result =>
    .pure _ (List.append_assoc _ _ rest ▸ (gained result).append_right rest)

theorem opens_upkeeps (member : Member) (keeping : Keeping) (opening : Opening) :
    member.Upkeeps owns (member.opens keeping opening) rest :=
  upkeeps_bind Handle.references opening.start_settles
    fun handle => references_push (.handle handle keeping)

theorem calls_upkeeps (member : Member) {snapshot : Snapshot} (innermost : Crosser)
    (has : snapshot.chain ∈ member.references) :
    member.Upkeeps owns (member.calls snapshot innermost) rest :=
  upkeeps_bind (fun entered => entered.2.references)
    (Snapshot.enter_settles innermost (List.mem_append_left _ has))
    fun entered => references_push (.call entered.1 entered.2)

theorem ends_upkeeps {place : Nat} {frame : Frame} (found : member.frames[place]? = some frame) :
    member.Upkeeps owns (member.ends place frame) rest := by
  have finished : Settles owns (Act.attempt frame.finish : Act Crew _)
      (frame.references ++ ((member.pull place).references ++ rest))
      (Outcome.owing (fun _ => (member.pull place).references ++ rest)
        ((member.pull place).references ++ rest)) rest :=
    frame.finish_settles.attempt
  refine Settles.bind (finished.perm ?_ (fun _ => .refl _) (.refl _)) fun outcome => .pure _ ?_
  · rw [← List.append_assoc]
    exact (references_pull found).append_right rest
  · cases outcome <;> exact .refl _

theorem snapshot_mem {place : Nat} {innermost : Crosser} {outer : Chain}
    (reached : (member.snapshot place).chain = innermost :: outer) :
    (member.snapshot place).chain ∈ member.references := by
  unfold snapshot parcel at reached ⊢
  cases found : member.parcels[place]? with
  | none => simp [found, Parcel.toSnapshot, Snapshot.empty] at reached
  | some parcel =>
      rw [found] at reached
      cases parcel with
      | snapshot taken =>
          refine List.mem_append_left _ (List.mem_flatMap.mpr ⟨.snapshot taken, ?_, .head _⟩)
          exact List.mem_append_left _ (List.mem_of_getElem? found)
      | captor | bridge | nothing => simp [Parcel.toSnapshot, Snapshot.empty] at reached

theorem parcel_mem {place : Nat} {chain : Chain}
    (has : chain ∈ (member.parcel place).references) : chain ∈ member.references := by
  unfold parcel at has
  cases found : member.parcels[place]? with
  | none => simp [found, Parcel.references] at has
  | some parcel =>
      rw [found] at has
      refine List.mem_append_left _ (List.mem_flatMap.mpr ⟨parcel, ?_, has⟩)
      exact List.mem_append_left _ (List.mem_of_getElem? found)

end Member

/-- Whatever is there to be received is referred to by someone. -/
def Inbox.Covered (inbox : Inbox) (references : List Chain) : Prop :=
  ∀ (sender : ThreadId) (place : Nat) (parcel : Parcel), (inbox sender)[place]? = some parcel →
    ∀ chain ∈ parcel.references, chain ∈ references

theorem Task.deed_upkeeps {owns : Crew → List Chain} {task : Task} {inbox : Inbox}
    {member : Member} {rest : List Chain} {deed : Act Crew Member}
    (does : task.deed? inbox member = some deed)
    (covered : inbox.Covered (member.references ++ rest)) :
    member.Upkeeps owns deed rest := by
  cases task with
  | make type captor =>
      cases does
      exact Settles.pure _ ((Member.references_gain (.captor type captor)).append_right rest)
  | «open» manner place =>
      simp only [Task.deed?] at does
      split at does <;> cases does
      · exact Member.upkeeps_pure rfl
      · exact member.opens_upkeeps .free _
  | within manner place body =>
      simp only [Task.deed?] at does
      split at does <;> cases does
      · exact Member.upkeeps_pure rfl
      · exact Member.opens_upkeeps (member.first _) .around _
  | finish place =>
      cases does
      exact Member.upkeeps_pure rfl
  | forget place =>
      cases does
      exact Member.upkeeps_pure (Member.references_forget place)
  | capture =>
      cases does
      exact Member.upkeeps_bind (fun taken => [taken.chain]) Snapshot.capture_settles
        fun taken => Member.references_gain (.snapshot taken)
  | bridge type =>
      cases does
      exact Member.upkeeps_bind (fun _ => []) (Bridge.build_settles type)
        fun built => Member.references_gain (.bridge built)
  | bridgeOf place =>
      simp only [Task.deed?] at does
      split at does <;> cases does
      · exact Member.upkeeps_pure rfl
      · exact Settles.pure _ ((Member.references_gain (.bridge _)).append_right rest)
  | call place body =>
      simp only [Task.deed?] at does
      split at does <;> rename_i reached <;> cases does
      · exact Member.upkeeps_pure rfl
      · exact Member.calls_upkeeps (member.first _) _ (Member.snapshot_mem reached)
  | current type =>
      cases does
      exact Member.upkeeps_bind (fun _ => []) (Settles.current type) fun _ => .refl _
  | depth place =>
      cases does
      exact Member.upkeeps_pure rfl
  | compare first second =>
      cases does
      exact Member.upkeeps_pure rfl
  | hand place =>
      cases does
      refine Member.upkeeps_bind _ (Parcel.clone_settles fun chain has => ?_)
        fun _ => Member.references_hand (member.parcel place)
      exact List.mem_append_left _ (Member.parcel_mem has)
  | receive sender place =>
      simp only [Task.deed?] at does
      split at does <;> cases does
      rename_i parcel there
      exact Member.upkeeps_bind _ (Parcel.clone_settles (covered sender place parcel there))
        fun _ => Member.references_gain parcel
  | drop place =>
      cases does
      let left := { member with parcels := member.parcels.set place .nothing }
      have dropped : Settles owns (member.parcel place).drop (member.references ++ rest)
          (fun _ => left.references ++ rest) rest :=
        (Parcel.drop_settles _).perm
          (List.append_assoc _ _ rest ▸ (Member.references_drop place).append_right rest)
          (fun _ => .refl _) (.refl _)
      exact dropped.bind fun _ => .pure left (.refl _)
  | raise message =>
      cases does
      exact Member.upkeeps_pure rfl
  | attempt body =>
      cases does
      exact Member.upkeeps_pure rfl

theorem Member.deed_upkeeps {owns : Crew → List Chain} {inbox : Inbox} {member : Member}
    {rest : List Chain} {deed : Act Crew Member} (does : member.deed? inbox = some deed)
    (covered : inbox.Covered (member.references ++ rest)) : member.Upkeeps owns deed rest := by
  unfold Member.deed? at does
  split at does
  case h_1 => contradiction
  case h_2 item plan planned =>
    let rested := { member with plan := plan }
    dsimp only at does
    split at does
    case h_1 place frame ending =>
      cases does
      have found : member.frames[place]? = some frame := Member.frame_of_ending ending
      have ends : rested.Upkeeps owns (rested.ends place frame) rest := Member.ends_upkeeps found
      exact ends
    case h_2 =>
      have does : rested.Upkeeps owns deed rest := Task.deed_upkeeps does covered
      exact does
    case h_3 | h_4 =>
      cases does
      exact Member.upkeeps_pure rfl

/-! ## Turns -/

/-- What some of the threads refer to. -/
def Crew.references (crew : Crew) (roster : List ThreadId) : List Chain :=
  roster.flatMap fun id => (crew id).references

/-- What one of the threads refers to comes first, and then what the others do. -/
theorem Crew.references_split (crew : Crew) {roster : List ThreadId} {id : ThreadId}
    (listed : id ∈ roster) :
    (crew.references roster).Perm ((crew id).references ++ crew.references (roster.erase id)) :=
  (List.perm_cons_erase listed).flatMap_right fun id => (crew id).references

namespace Process

/-- All that is referred to: by the threads, and by what they have. -/
def references (process : Process Crew) (roster : List ThreadId) : List Chain :=
  process.chains ++ Crew.references process.client roster

/-- The registry counts what is referred to, and only the threads given have anything. -/
structure Kept (roster : List ThreadId) (process : Process Crew) : Prop where
  custody : process.Custody (Crew.references · roster) []
  idle : ∀ id ∉ roster, (process.client id).references = []

variable {build : Build} {id : ThreadId} {process next : Process Crew} {roster : List ThreadId}

theorem start_kept (roster : List ThreadId) (plans : ThreadId → List Task) :
    (start fun id => Member.start (plans id)).Kept roster where
  custody := start_custody (List.flatMap_eq_nil_iff.mpr fun _ _ => rfl)
  idle _ _ := rfl

namespace Kept

theorem counts (kept : process.Kept roster) :
    process.registry.Counts (process.references roster) := by
  have counts := kept.custody.counts
  rwa [List.append_nil] at counts

/-- What has been handed over is referred to by the one who did. -/
theorem covered (kept : process.Kept roster) :
    process.inbox.Covered (Crew.references process.client roster) := by
  intro sender place parcel found chain has
  have handed : chain ∈ (process.client sender).references := by
    refine List.mem_append_left _ (List.mem_flatMap.mpr ⟨parcel, ?_, has⟩)
    exact List.mem_append_right _ (List.mem_of_getElem? found)
  by_cases listed : sender ∈ roster
  · exact List.mem_flatMap.mpr ⟨sender, listed, handed⟩
  · rw [kept.idle sender listed] at handed
    contradiction

/-- What a thread has may change along with what the registry counts. -/
theorem update {left : Process Crew} {member : Member} (kept : process.Kept roster)
    (distinct : roster.Nodup) (listed : id ∈ roster) (same : left.client = process.client)
    (custody : left.Custody (fun _ => [])
      (member.references ++ Crew.references process.client (roster.erase id))) :
    ({ left with client := Function.update left.client id member } : Process Crew).Kept
      roster where
  custody := by
    have elsewhere : Crew.references (Function.update left.client id member) (roster.erase id) =
        Crew.references process.client (roster.erase id) := by
      refine List.flatMap_congr fun other present => ?_
      rw [same, Function.update_of_ne ((List.Nodup.mem_erase_iff distinct).mp present).1]
    have moved := (Crew.references_split (Function.update left.client id member) listed).symm
    rw [elsewhere, Function.update_self] at moved
    exact custody.client (by simpa using moved)
  idle other absent := by
    have apart : other ≠ id := fun own => absent (own ▸ listed)
    change (Function.update left.client id member other).references = []
    rw [same, Function.update_of_ne apart]
    exact kept.idle other absent

/-- What one thread has is given to it, with all that the others have besides. -/
theorem given (kept : process.Kept roster) (listed : id ∈ roster) :
    process.Custody (fun _ => []) ((process.client id).references ++
      Crew.references process.client (roster.erase id)) :=
  kept.custody.client (by simpa using Crew.references_split process.client listed)

theorem turn (kept : process.Kept roster) (distinct : roster.Nodup) (listed : id ∈ roster)
    (turned : process.turn build id = some next) : next.Kept roster := by
  obtain ⟨deed, does, reached⟩ := deed_of_turn turned
  obtain ⟨value, found, after, yields, -⟩ :=
    Member.deed_yields does (process.place build id) (process.thread id)
  obtain ⟨outcome, moved⟩ := yields process rfl
  let rest := Crew.references process.client (roster.erase id)
  have upkeeps : (process.client id).Upkeeps (fun _ => []) deed rest :=
    Member.deed_upkeeps does fun sender place parcel found chain has =>
      (Crew.references_split process.client listed).mem_iff.mp
        (kept.covered sender place parcel found chain has)
  have given : process.Custody (fun _ => []) ((process.client id).references ++ rest ++ []) := by
    rw [List.append_nil]
    exact kept.given listed
  have left := upkeeps (process.place build id) process [] given
  rw [outcome, Outcome.owing, List.append_nil] at left
  rw [← reached]
  unfold Process.turned
  rw [outcome]
  exact kept.update distinct listed moved.client (by rwa [Member.references_record])

end Kept

end Process

end Ambient
