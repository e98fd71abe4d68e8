import Ambient.Proofs.Crew

/-!
# Schedules

The order in which the threads of a crew take their turns does not matter.  A turn
moves its own thread only, by what that thread has itself and by what it receives, and
what is handed over stays what it is.  So after as many turns of its own a thread has
seen the same, however many turns the others have taken in between and whatever they
have ended meanwhile.
-/

namespace Ambient

namespace Process

variable {build : Build} {id other : ThreadId} {process next last : Process Crew}

/-! ## One thread in two processes -/

/-- A thread, with all that it has, is the same in two processes. -/
structure SameOn (id : ThreadId) (process other : Process Crew) : Prop where
  thread : process.thread id = other.thread id
  member : process.client id = other.client id

namespace SameOn

variable {first second third : Process Crew}

theorem refl (id : ThreadId) (process : Process Crew) : SameOn id process process :=
  ⟨rfl, rfl⟩

theorem symm (same : SameOn id first second) : SameOn id second first :=
  ⟨same.thread.symm, same.member.symm⟩

theorem trans (front : SameOn id first second) (back : SameOn id second third) :
    SameOn id first third :=
  ⟨front.thread.trans back.thread, front.member.trans back.member⟩

end SameOn

/-! ## Single turns -/

theorem deed_of_turn (turned : process.turn build id = some next) :
    ∃ deed, (process.client id).deed? process.inbox = some deed ∧
      process.turned id (deed (process.place build id) process) = next :=
  Option.map_eq_some_iff.mp turned

/-- A turn leaves the other threads alone. -/
theorem turn_elsewhere (turned : process.turn build id = some next) (apart : id ≠ other) :
    SameOn other next process := by
  obtain ⟨deed, does, reached⟩ := deed_of_turn turned
  obtain ⟨value, found, after, yields, -⟩ :=
    Member.deed_yields does (process.place build id) (process.thread id)
  obtain ⟨-, others, crew⟩ := turned_of_yields yields reached
  exact ⟨others other apart, by rw [crew, Function.update_of_ne apart.symm]⟩

/-- What has been handed over stays there. -/
theorem turn_handed (turned : process.turn build id = some next) (sender : ThreadId) :
    process.inbox sender <+: next.inbox sender := by
  by_cases own : id = sender
  case pos =>
    subst own
    obtain ⟨deed, does, reached⟩ := deed_of_turn turned
    obtain ⟨value, found, after, yields, -, grown⟩ :=
      Member.deed_yields does (process.place build id) (process.thread id)
    obtain ⟨-, -, crew⟩ := turned_of_yields yields reached
    simp only [inbox, crew, Function.update_self]
    exact grown
  case neg =>
    rewrite [inbox, inbox, (turn_elsewhere turned own).member]
    exact List.prefix_refl _

/-- For each thread one of two inboxes has all that the other has. -/
def Comparable (first second : Inbox) : Prop :=
  ∀ sender, first sender <+: second sender ∨ second sender <+: first sender

theorem getElem?_eq_of_comparable {α : Type} {first second : List α} {place : Nat}
    {one two : α} (comparable : first <+: second ∨ second <+: first)
    (found : first[place]? = some one) (found' : second[place]? = some two) : one = two := by
  have inside := (List.getElem?_eq_some_iff.mp found).1
  have inside' := (List.getElem?_eq_some_iff.mp found').1
  rcases comparable with ⟨rest, rfl⟩ | ⟨rest, rfl⟩
  · rw [List.getElem?_append_left inside, found] at found'
    exact Option.some.inj found'
  · rw [List.getElem?_append_left inside', found'] at found
    exact (Option.some.inj found).symm

/-- A task does not depend on how much more is there to receive. -/
theorem task_of_comparable {task : Task} {member : Member} {first second : Inbox}
    {one two : Act Crew Member} (comparable : Comparable first second)
    (does : task.deed? first member = some one)
    (does' : task.deed? second member = some two) : one = two := by
  cases task
  case receive sender place =>
    simp only [Task.deed?] at does does'
    cases found : (first sender)[place]? with
    | none => simp [found] at does
    | some parcel =>
        cases found' : (second sender)[place]? with
        | none => simp [found'] at does'
        | some other =>
            cases getElem?_eq_of_comparable (comparable sender) found found'
            rw [found] at does
            rw [found'] at does'
            exact Option.some.inj (does.symm.trans does')
  all_goals exact Option.some.inj (does.symm.trans does')

theorem deed_of_comparable {member : Member} {first second : Inbox} {one two : Act Crew Member}
    (comparable : Comparable first second) (does : member.deed? first = some one)
    (does' : member.deed? second = some two) : one = two := by
  unfold Member.deed? at does does'
  split at does
  · contradiction
  · rename_i item plan planned
    rw [planned] at does'
    dsimp only at does does'
    split at does
    case h_2 task ending passing =>
      simp only [passing] at does
      simp only [ending, passing] at does'
      exact task_of_comparable comparable does does'
    all_goals simp_all

/-- A turn is the same wherever its thread is and the inboxes are comparable. -/
theorem SameOn.turn {first second one two : Process Crew} (same : SameOn id first second)
    (comparable : Comparable first.inbox second.inbox)
    (turned : first.turn build id = some one) (turned' : second.turn build id = some two) :
    SameOn id one two := by
  obtain ⟨deed, does, reached⟩ := deed_of_turn turned
  obtain ⟨deed', does', reached'⟩ := deed_of_turn turned'
  rw [← same.member] at does'
  cases deed_of_comparable comparable does does'
  obtain ⟨value, found, after, yields, -⟩ :=
    Member.deed_yields does (first.place build id) (first.thread id)
  have yields' : deed.Yields (second.place build id) (second.thread id) value found after := by
    rw [← same.thread, place, ← same.member]
    exact yields
  obtain ⟨own, -, crew⟩ := turned_of_yields yields reached
  obtain ⟨own', -, crew'⟩ := turned_of_yields yields' reached'
  exact ⟨own.trans own'.symm, by rw [crew, crew', Function.update_self, Function.update_self]⟩

/-! ## Many turns -/

theorem turns_append {front back : List ThreadId} :
    turns build (front ++ back) process =
      (turns build front process).bind (turns build back) := by
  induction front generalizing process with
  | nil => rfl
  | cons id front ih =>
      simp only [List.cons_append, turns]
      cases process.turn build id with
      | none => rfl
      | some next => exact ih

/-- The last of some turns comes after the others. -/
theorem turns_concat {front : List ThreadId}
    (ran : turns build (front ++ [id]) process = some last) :
    ∃ middle, turns build front process = some middle ∧ middle.turn build id = some last := by
  rw [turns_append, Option.bind_eq_some_iff] at ran
  obtain ⟨middle, reached, final⟩ := ran
  refine ⟨middle, reached, ?_⟩
  simpa [turns] using final

theorem turns_handed {order : List ThreadId} (ran : turns build order process = some last)
    (sender : ThreadId) : process.inbox sender <+: last.inbox sender := by
  induction order generalizing process with
  | nil =>
      cases ran
      exact List.prefix_refl _
  | cons id order ih =>
      obtain ⟨next, turned, rest⟩ := Option.bind_eq_some_iff.mp ran
      exact (turn_handed turned sender).trans (ih rest)

/-- A thread that takes no turn stays as it is. -/
theorem turns_elsewhere {order : List ThreadId} (ran : turns build order process = some last)
    (absent : id ∉ order) : SameOn id last process := by
  induction order generalizing process with
  | nil =>
      cases ran
      exact .refl id _
  | cons first order ih =>
      obtain ⟨next, turned, rest⟩ := Option.bind_eq_some_iff.mp ran
      rw [List.mem_cons, not_or] at absent
      rcases absent with ⟨apart, absent⟩
      exact (ih rest absent).trans (turn_elsewhere turned (Ne.symm apart))

end Process

/-- Among some turns there is a moment after any number of those of one thread. -/
theorem exists_front_count {id : ThreadId} {order : List ThreadId} {count : Nat}
    (bound : count ≤ order.count id) :
    ∃ front back, order = front ++ back ∧ front.count id = count := by
  induction order generalizing count with
  | nil => exact ⟨[], [], rfl, (Nat.le_zero.mp bound).symm⟩
  | cons first order ih =>
      cases count with
      | zero => exact ⟨[], first :: order, rfl, rfl⟩
      | succ count =>
          by_cases own : first = id
          · subst own
            rw [List.count_cons_self] at bound
            obtain ⟨front, back, rfl, counted⟩ := ih (Nat.le_of_succ_le_succ bound)
            exact ⟨first :: front, back, rfl, by rw [List.count_cons_self, counted]⟩
          · rw [List.count_cons_of_ne own] at bound
            obtain ⟨front, back, rfl, counted⟩ := ih bound
            exact ⟨first :: front, back, rfl, by rw [List.count_cons_of_ne own, counted]⟩

namespace Process

variable {build : Build} {id : ThreadId} {start one two : Process Crew}
  {first second : List ThreadId}

/-- The inboxes after two runs are comparable if threads are the same after as many
turns of their own in shorter runs. -/
theorem comparable_of_shorter
    (ran : turns build first start = some one) (ran' : turns build second start = some two)
    (shorter : ∀ (front back : List ThreadId) (early late : Process Crew),
      front.length + back.length ≤ first.length + second.length →
        turns build front start = some early → turns build back start = some late →
          ∀ id, front.count id = back.count id → SameOn id early late) :
    Comparable one.inbox two.inbox := by
  intro sender
  rcases Nat.le_total (first.count sender) (second.count sender) with fewer | fewer
  case inl =>
    left
    obtain ⟨front, back, rfl, counted⟩ := exists_front_count fewer
    rw [turns_append, Option.bind_eq_some_iff] at ran'
    obtain ⟨early, reached, rest⟩ := ran'
    have same := shorter first front one early (by simp) ran reached sender counted.symm
    rw [inbox, same.member]
    exact turns_handed rest sender
  case inr =>
    right
    obtain ⟨front, back, rfl, counted⟩ := exists_front_count fewer
    rw [turns_append, Option.bind_eq_some_iff] at ran
    obtain ⟨early, reached, rest⟩ := ran
    have same := shorter front second early two (by simp) reached ran' sender counted
    rw [inbox, ← same.member]
    exact turns_handed rest sender

/-- After as many turns of its own a thread is the same in any two runs.  The induction
is on how many turns both runs have together, since what a thread receives in its last
turn was handed over before. -/
theorem same_of_count (count : Nat) (bound : first.length + second.length = count)
    (ran : turns build first start = some one) (ran' : turns build second start = some two)
    (id : ThreadId) (equal : first.count id = second.count id) : SameOn id one two := by
  induction count using Nat.strongRecOn generalizing first second one two id with
  | ind count ih =>
      rcases List.eq_nil_or_concat first with rfl | ⟨front, latest, rfl⟩
      case inl =>
        have absent : id ∉ second := List.count_eq_zero.mp equal.symm
        cases ran
        exact (turns_elsewhere ran' absent).symm
      rcases List.eq_nil_or_concat second with rfl | ⟨back, latest', rfl⟩
      case inl =>
        have absent : id ∉ front.concat latest := List.count_eq_zero.mp equal
        cases ran'
        exact turns_elsewhere ran absent
      simp only [List.concat_eq_append, List.length_append, List.length_singleton] at *
      obtain ⟨early, before, turned⟩ := turns_concat ran
      obtain ⟨late, before', turned'⟩ := turns_concat ran'
      -- A last turn of some other thread changes nothing.
      by_cases own : latest = id
      case neg =>
        have counted : front.count id = (back ++ [latest']).count id := by
          simpa [List.count_append, own] using equal
        have same := ih (count - 1) (by omega)
          (by simp only [List.length_append, List.length_singleton]; omega) before ran' id counted
        exact (turn_elsewhere turned own).trans same
      by_cases own' : latest' = id
      case neg =>
        have counted : (front ++ [latest]).count id = back.count id := by
          simpa [List.count_append, own'] using equal
        have same := ih (count - 1) (by omega)
          (by simp only [List.length_append, List.length_singleton]; omega) ran before' id counted
        exact same.trans (turn_elsewhere turned' own').symm
      subst own
      subst own'
      have counted : front.count latest' = back.count latest' := by
        simpa [List.count_append] using equal
      have same := ih (count - 2) (by omega) (by omega) before before' latest' counted
      apply same.turn _ turned turned'
      apply comparable_of_shorter before before'
      intro front' back' early' late' shorter reached reached' id' counted'
      exact ih _ (by omega) rfl reached reached' id' counted'

/-! ## Whole runs -/

/-- A thread that is done takes no more turns. -/
theorem not_mem_of_done {order : List ThreadId} (ran : turns build order start = some one)
    (done : (start.client id).plan = []) : id ∉ order := by
  induction order generalizing start with
  | nil => exact List.not_mem_nil
  | cons latest order ih =>
      obtain ⟨next, turned, rest⟩ := Option.bind_eq_some_iff.mp ran
      have apart : latest ≠ id := by
        rintro rfl
        obtain ⟨deed, does, -⟩ := deed_of_turn turned
        simp [Member.deed?, done] at does
      have later : id ∉ order := by
        apply ih rest
        rw [(turn_elsewhere turned apart).member]
        exact done
      simp [apart.symm, later]

/-- No run has more turns of a thread than one that it is done after. -/
theorem count_le_of_done (ran : turns build first start = some one)
    (ran' : turns build second start = some two) (done : (one.client id).plan = []) :
    second.count id ≤ first.count id := by
  by_contra more
  obtain ⟨front, back, rfl, counted⟩ := exists_front_count (Nat.le_of_not_le more)
  rw [turns_append, Option.bind_eq_some_iff] at ran'
  obtain ⟨early, reached, rest⟩ := ran'
  have same := same_of_count _ rfl reached ran id counted
  have absent : id ∉ back := not_mem_of_done rest (by rw [same.member]; exact done)
  rw [List.count_append, counted, List.count_eq_zero.mpr absent] at more
  omega

/-- The order of turns does not matter.  In any two runs of a crew from the same start,
in which nothing is received before it is handed over, a thread that has taken as many
turns in both has the same slots, the same chain and the same journal, and all else that
it has is the same too.  So when all threads are done every one of them is where any
other order would have brought it. -/
theorem turns_agree (build : Build) {start one two : Process Crew}
    {first second : List ThreadId} (ran : turns build first start = some one)
    (ran' : turns build second start = some two) :
    (∀ id, first.count id = second.count id →
      one.thread id = two.thread id ∧ one.client id = two.client id) ∧
      ((∀ id, (one.client id).plan = []) → (∀ id, (two.client id).plan = []) →
        ∀ id, one.thread id = two.thread id ∧ one.client id = two.client id) := by
  have alike : ∀ id, first.count id = second.count id →
      one.thread id = two.thread id ∧ one.client id = two.client id := by
    intro id equal
    have same := same_of_count _ rfl ran ran' id equal
    exact ⟨same.thread, same.member⟩
  refine ⟨alike, fun done done' id => alike id (Nat.le_antisymm ?_ ?_)⟩
  · exact count_le_of_done ran' ran (done' id)
  · exact count_le_of_done ran ran' (done id)

/-- A thread hands over a snapshot and ends its crosser, before another one calls the
snapshot or while that one is inside the call and leaves a crosser of its own open. -/
theorem turns_agree_inside_call :
    let log : CaptorType := ⟨"Log"⟩
    let worker : ThreadId := .worker "worker"
    let inside : List Task :=
      [.current log, .capture, .compare 0 2, .open .crosser 1]
    let start : Process Crew := .start fun id =>
      if id = .main then
        .start [.make log "log", .open .crosser 0, .capture, .hand 1, .finish 0, .current log]
      else if id = worker then
        .start [.receive .main 0, .make log "own", .call 0 inside]
      else
        .start []
    let first := List.replicate 6 .main ++ List.replicate 8 worker
    let second := List.replicate 4 .main ++ List.replicate 5 worker ++ [.main] ++
      List.replicate 3 worker ++ [.main]
    ∃ one two, turns .debug first start = some one ∧ turns .debug second start = some two ∧
      (∀ id, one.thread id = two.thread id ∧ one.client id = two.client id) ∧
      (one.client worker).journal =
        [.current log (some "log"), .compared true, .previous log (some "log"),
          .misused (.crosser log), .misused (.crossing log)] := by
  intro log worker inside start first second
  obtain ⟨one, ran⟩ := Option.isSome_iff_exists.mp
    (show (turns .debug first start).isSome by decide +kernel)
  obtain ⟨two, ran'⟩ := Option.isSome_iff_exists.mp
    (show (turns .debug second start).isSome by decide +kernel)
  have journal : (turns .debug first start).map (fun last => (last.client worker).journal) =
      some [.current log (some "log"), .compared true, .previous log (some "log"),
        .misused (.crosser log), .misused (.crossing log)] := by decide +kernel
  rw [ran] at journal
  -- The threads that take no turn have no plan to begin with.
  have done : ∀ order last, turns .debug order start = some last →
      (turns .debug order start).map (fun last =>
        (last.client .main).plan.isEmpty && (last.client worker).plan.isEmpty) = some true →
      (∀ id ∈ order, id = .main ∨ id = worker) → ∀ id, (last.client id).plan = [] := by
    intro order last ran idle named id
    simp only [ran, Option.map_some, Option.some.injEq, Bool.and_eq_true,
      List.isEmpty_iff] at idle
    by_cases busy : id = .main ∨ id = worker
    · rcases busy with rfl | rfl
      · exact idle.1
      · exact idle.2
    · rw [(turns_elsewhere ran fun member => busy (named id member)).member]
      rw [not_or] at busy
      simp [start, Process.start, busy, Member.start]
  have alike := (turns_agree .debug ran ran').2
    (done first one ran (by decide +kernel) (by decide +kernel))
    (done second two ran' (by decide +kernel) (by decide +kernel))
  exact ⟨one, two, ran, ran', alike, Option.some.inj journal⟩

end Process

end Ambient
