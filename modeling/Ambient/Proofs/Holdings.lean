import Ambient.Proofs.Keeping
import Ambient.Script.Futures

/-!
# Tidy holdings

What a session holds is put into registers, taken out and given up without any effect
on what is in scope, and what is put there is tidy.
-/

namespace Ambient.Script

namespace Keeps

variable {foreign : String → Bool} {α : Type} {good : α → Prop}

/-! ## Chains -/

theorem current (type : CaptorType) : Keeps foreign (Act.current type) Any :=
  of_moves fun id thread => Act.current_moves id thread type

theorem hold (chain : Chain) : Keeps foreign (Act.hold chain) Any :=
  of_moves fun id thread => Act.hold_moves id thread chain

theorem release (chain : Chain) : Keeps foreign (Act.release chain) Any :=
  of_moves fun id thread => Act.release_moves id thread chain

theorem capture : Keeps foreign Snapshot.capture Any :=
  of_moves Snapshot.capture_moves

theorem clone (snapshot : Snapshot) : Keeps foreign snapshot.clone Any :=
  (hold snapshot.chain).bind fun _ _ => .pure trivial

theorem buildPoint : Keeps foreign EntryPoint.build Any :=
  of_moves Snapshot.build_point_moves

theorem buildBridge (type : CaptorType) : Keeps foreign (Bridge.build type) Any :=
  of_moves fun id thread => Bridge.build_moves type id thread

theorem holdAll (snapshots : List Snapshot) : Keeps foreign (Snapshot.holdAll snapshots) Any := by
  induction snapshots with
  | nil => exact .pure trivial
  | cons snapshot rest ih => exact (hold snapshot.chain).bind fun _ _ => ih

theorem dropAll (snapshots : List Snapshot) : Keeps foreign (Snapshot.dropAll snapshots) Any := by
  induction snapshots with
  | nil => exact .pure trivial
  | cons snapshot rest ih => exact (release snapshot.chain).bind fun _ _ => ih

theorem drop (item : Item) : Keeps foreign item.drop Any :=
  dropAll item.snapshots

/-- A tidy future that is given up holds no handle. -/
theorem dropFuture {future : Future} (tidy : future.Tidy foreign) :
    Keeps foreign future.drop Any := by
  refine (dropAll future.snapshots).bind fun _ _ => ?_
  rw [tidy.held]
  exact .pure trivial

/-! ## Registers -/

theorem threadId : Keeps foreign Run.threadId Any :=
  context.bind fun _ _ => .pure trivial

theorem item? (register : String) :
    Keeps foreign (Run.item? register) fun found => ∀ item, foreign register = false →
      found = some item → item.Tidy foreign :=
  session.bind fun _ tidy => .pure fun item own found => tidy.registers register item own found

theorem bindItem (register : String) {item : Item} (tidy : item.Tidy foreign) :
    Keeps foreign (Run.bind register item) Any := by
  refine (item? register).bind fun old _ => ?_
  refine (modify (fun _ fine => fine.insert register tidy)
    fun _ => ⟨rfl, rfl, rfl, fun _ _ _ => rfl⟩).bind fun _ _ => ?_
  cases old with
  | none => exact .pure trivial
  | some item => exact .drop item

theorem unbind (register : String) : Keeps foreign (Run.unbind register) Any :=
  modify (fun _ fine => fine.erase register) fun _ => ⟨rfl, rfl, rfl, fun _ _ _ => rfl⟩

/-! ## Futures of a thread -/

theorem futures : Keeps foreign Run.futures (TidyFutures foreign) :=
  session.bind fun _ tidy => threadId.bind fun thread _ => .pure (tidy.futures thread)

/-- The futures of a thread change together, and the foreign ones among them not at all. -/
theorem updatingFutures {change : Table String Future → Table String Future}
    {next : Table String Future → Run α}
    (fine : ∀ kept, TidyFutures foreign kept → TidyFutures foreign (change kept))
    (same : ∀ kept name, foreign name = true → (change kept).find? name = kept.find? name)
    (rest : ∀ kept, TidyFutures foreign kept → Keeps foreign (next kept) good) :
    Keeps foreign
      (Run.futures >>= fun kept => Run.setFutures (change kept) >>= fun _ => next kept)
      good := by
  -- What is put back depends on what was read just before, so both are one act here.
  have updates : Keeps foreign
      (Run.futures >>= fun kept => Run.setFutures (change kept) >>= fun _ => Pure.pure kept)
      (TidyFutures foreign) := by
    intro context process tidy hosts
    have kept := tidy.session.futures context.thread
    exact ⟨.of_client tidy (tidy.session.setFutures context.thread (fine _ kept))
      (Session.beside_setFutures (same _)) _, fun _ found => Outcome.value.inj found ▸ kept⟩
  simpa only [bind_assoc, pure_bind] using updates.bind rest

theorem keepFuture {name : String} (own : foreign name = false) {future : Future}
    (tidy : future.Tidy foreign) : Keeps foreign (Run.keepFuture name future) Any := by
  refine updatingFutures (fun kept fine other found apart lookup => ?_)
    (fun kept other apart => ?_) fun kept fine => ?_
  · rw [Table.find?_insert] at lookup
    split at lookup
    · exact Option.some.inj lookup ▸ tidy
    · exact fine other found apart lookup
  · rw [Table.find?_insert, if_neg]
    rintro rfl
    simp [own] at apart
  · cases found : kept.find? name with
    | none => exact .pure trivial
    | some old => exact .dropFuture (fine name old own found)

theorem removeFuture {name : String} (own : foreign name = false) :
    Keeps foreign (Run.removeFuture name) Any := by
  have removes : Keeps foreign
      (Run.futures >>= fun kept => Run.setFutures (kept.erase name) >>= fun _ => Pure.pure ())
      Any := by
    refine updatingFutures (fun kept fine other found apart lookup => ?_)
      (fun kept other apart => ?_) fun _ _ => .pure trivial
    · rw [Table.find?_erase] at lookup
      split at lookup
      · contradiction
      · exact fine other found apart lookup
    · rw [Table.find?_erase, if_neg]
      rintro rfl
      simp [own] at apart
  simp only [bind_pure_unit] at removes
  exact removes

/-! ## The history -/

/-- What is written down takes the records, but none is lost. -/
theorem note {happening : Happening} (silent : happening.misuse? = none) :
    Keeps foreign (Run.note happening) Any := by
  intro context process tidy hosts
  have fine : Session.Tidy foreign ((Run.note happening context process).2.client) :=
    ⟨tidy.session.receivers, tidy.session.registers, tidy.session.futures,
      tidy.session.suspended⟩
  refine ⟨⟨.refl _, fun _ _ _ => .refl _, Nat.le_refl _, fun _ bare => ⟨bare.handles, bare.futures⟩,
    ?_, fine, tidy.fresh, fun index later => ?_, tidy.workers⟩, fun _ _ => trivial⟩
  · simp [Run.note, Act.modifyProcess, Process.warnings, Process.misuses, Process.log, silent,
      Function.comp_def]
  · have bare := tidy.bare index later
    exact ⟨bare.handles, bare.futures⟩

theorem addEntry (label : String) (result : Value) :
    Keeps foreign (Run.addEntry label result) Any := by
  refine (of_moves fun id thread => Act.thread_moves id thread).bind fun _ _ => ?_
  exact threadId.bind fun _ _ => note rfl

theorem recorded (label : String) {step : Run Value} (keeps : Keeps foreign step Any) :
    Keeps foreign (Run.recorded label step) Any := by
  refine keeps.attempt.bind fun outcome _ => ?_
  cases outcome with
  | value value =>
      exact (addEntry label value).bind fun _ _ => .conclude fun _ _ => trivial
  | panic panic =>
      exact (addEntry label (.panicked panic.message)).bind fun _ _ =>
        .conclude fun _ _ => trivial

end Keeps

end Ambient.Script
