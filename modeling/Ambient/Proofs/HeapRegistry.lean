import Ambient.Proofs.Heap

/-!
# Forests of nodes

Of a heap nothing need be known but that its links lead out of it nowhere and in no
circle, and that every node has as many references as it counts.  Then it is the heap of
some registry, and what the loop does to it is what the registry says.
-/

namespace Ambient

namespace Heap

def parent (heap : Heap) (id : CrosserId) : Option CrosserId :=
  (heap id).bind Node.parent

/-- A heap of some nodes whose counts are those of the references there are: the ones
given, and the links of the nodes. -/
structure Counted (heap : Heap) (nodes : List CrosserId) (references : List (Option CrosserId)) :
    Prop where
  distinct : nodes.Nodup
  listed : ∀ id, id ∈ nodes ↔ (heap id).isSome
  walks : ∀ link ∈ references ++ nodes.map heap.parent, ∃ chain, heap.Walks link chain
  counts : ∀ id node, heap id = some node →
    0 < node.count ∧ node.count = (references ++ nodes.map heap.parent).count (some id)

variable {heap : Heap} {nodes : List CrosserId} {link : Option CrosserId}
  {references : List (Option CrosserId)}

theorem Walks.node?_eq {chain : Chain} (walks : heap.Walks link chain) : chain.node? = link := by
  cases walks <;> rfl

end Heap

theorem Chain.pointing_eq_count (id : CrosserId) (references : List Chain) :
    pointing id references = (references.map node?).count (some id) := by
  rw [pointing, List.count, List.countP_map]
  exact List.countP_congr fun chain _ => by simp

namespace Registry

variable {registry : Registry} {references : List Chain}

/-- The links that the registry counts are those in memory. -/
theorem Listed.node?_links (listed : registry.Listed) (references : List Chain) :
    (registry.links references).map Chain.node? = references.map Chain.node? ++
      (registry.registrations.map (·.crosser.id)).map registry.heap.parent := by
  rw [links, List.map_append, List.map_map, List.map_map]
  congr 1
  refine List.map_congr_left fun registration member => ?_
  have found := heap_of_find? (listed.listed.mp member)
  simp only [Function.comp, Heap.parent, found, Option.bind_some]
  rfl

/-- What the registry counts, the nodes count. -/
theorem Counts.counted (counts : registry.Counts references) :
    registry.heap.Counted (registry.registrations.map (·.crosser.id))
      (references.map Chain.node?) := by
  refine ⟨counts.listed.distinct, fun id => counts.listed.isSome_iff.symm, ?_, ?_⟩
  · rw [← counts.listed.node?_links]
    exact List.forall_mem_map.mpr fun chain member => ⟨chain, counts.walks member⟩
  · intro id node present
    rw [← counts.listed.node?_links, ← Chain.pointing_eq_count, ← counts.holders]
    obtain ⟨registration, found, rfl⟩ := Option.map_eq_some_iff.mp present
    rw [holders_of_find? found]
    exact ⟨counts.held found, rfl⟩

/-- The registry of some registrations, each under the number of its crosser. -/
def ofNodes (registration : CrosserId → Registration) (nodes : List CrosserId) : Registry :=
  nodes.foldr (fun id registry => registry.assign id (some (registration id))) .empty

variable {registration : CrosserId → Registration} {nodes : List CrosserId}

theorem find?_ofNodes (id : CrosserId) :
    (ofNodes registration nodes).find? id =
      if id ∈ nodes then some (registration id) else none := by
  induction nodes with
  | nil => rfl
  | cons first nodes ih =>
      rw [ofNodes, List.foldr_cons, ← ofNodes, find?_assign, ih]
      by_cases same : first = id
      · simp [same]
      · simp [same, Ne.symm same]

theorem ofNodes_listed (own : ∀ id, (registration id).crosser.id = id) :
    (ofNodes registration nodes).Listed := by
  induction nodes with
  | nil => exact .empty
  | cons id nodes ih =>
      refine ih.assign fun new same => ?_
      rw [← Option.some.inj same, own]

end Registry

namespace Heap

variable {heap : Heap} {nodes : List CrosserId} {link : Option CrosserId}
  {references : List (Option CrosserId)}

/-- A node that something links to is there. -/
theorem Counted.isSome_of_mem (counted : heap.Counted nodes references) {id : CrosserId}
    (linked : some id ∈ references ++ nodes.map heap.parent) : (heap id).isSome := by
  obtain ⟨chain, walks⟩ := counted.walks _ linked
  cases walks with
  | node present => simp [present]

/-! ## The registry of a heap -/

/-- Registrations of the nodes, with the chains that their links lead to. -/
structure Recorded (heap : Heap) (registration : CrosserId → Registration) : Prop where
  own : ∀ id, (registration id).crosser.id = id
  node : ∀ id node, heap id = some node → ∃ outer, heap.Walks node.parent outer ∧
    registration id = ⟨⟨id, node.type, node.captor⟩, outer, node.count⟩

theorem Counted.recorded (counted : heap.Counted nodes references) :
    ∃ registration, heap.Recorded registration := by
  have each (id : CrosserId) : ∃ registration : Registration, registration.crosser.id = id ∧
      ∀ node, heap id = some node → ∃ outer, heap.Walks node.parent outer ∧
        registration = ⟨⟨id, node.type, node.captor⟩, outer, node.count⟩ := by
    cases present : heap id with
    | none => exact ⟨⟨⟨id, ⟨""⟩, ""⟩, [], 0⟩, rfl, nofun⟩
    | some node =>
        have member : id ∈ nodes := (counted.listed id).mpr (by simp [present])
        obtain ⟨outer, walks⟩ := counted.walks (heap.parent id)
          (List.mem_append_right _ (List.mem_map_of_mem member))
        rw [parent, present, Option.bind_some] at walks
        refine ⟨⟨⟨id, node.type, node.captor⟩, outer, node.count⟩, rfl, ?_⟩
        rintro other ⟨⟩
        exact ⟨outer, walks, rfl⟩
  choose registration own node using each
  exact ⟨registration, own, node⟩

namespace Recorded

variable {registration : CrosserId → Registration}

theorem find? (listed : ∀ id, id ∈ nodes ↔ (heap id).isSome) (id : CrosserId) :
    (Registry.ofNodes registration nodes).find? id = (heap id).map fun _ => registration id := by
  rw [Registry.find?_ofNodes]
  cases present : heap id with
  | none => simp [listed, present]
  | some node => simp [listed, present]

theorem heap_eq (recorded : heap.Recorded registration)
    (listed : ∀ id, id ∈ nodes ↔ (heap id).isSome) :
    (Registry.ofNodes registration nodes).heap = heap := by
  funext id
  rw [Registry.heap, find? listed]
  cases present : heap id with
  | none => rfl
  | some node =>
      obtain ⟨outer, walks, made⟩ := recorded.node id node present
      rw [Option.map_some, Option.map_some, made, Registration.node, walks.node?_eq]

theorem has (recorded : heap.Recorded registration)
    (listed : ∀ id, id ∈ nodes ↔ (heap id).isSome) {chain : Chain}
    (walks : heap.Walks link chain) : (Registry.ofNodes registration nodes).Has chain := by
  cases walks with
  | done => trivial
  | @node id node outer present further =>
      obtain ⟨around, walks, made⟩ := recorded.node id node present
      obtain rfl := walks.unique further
      refine ⟨node.count, ?_⟩
      rw [find? listed, present, Option.map_some, made]

/-- The registered crossers are the nodes. -/
theorem ids_perm (recorded : heap.Recorded registration) (distinct : nodes.Nodup)
    (listed : ∀ id, id ∈ nodes ↔ (heap id).isSome) :
    ((Registry.ofNodes registration nodes).registrations.map (·.crosser.id)).Perm nodes := by
  have known : (Registry.ofNodes registration nodes).Listed := Registry.ofNodes_listed recorded.own
  refine (List.perm_ext_iff_of_nodup known.distinct distinct).mpr fun id => ?_
  rw [← known.isSome_iff, recorded.heap_eq listed, listed]

end Recorded

/-- Every heap with the right counts is that of a registry. -/
theorem Counted.exists_registry (counted : heap.Counted nodes references) :
    ∃ (registry : Registry) (chains : List Chain), registry.heap = heap ∧
      chains.map Chain.node? = references ∧ registry.Counts chains := by
  obtain ⟨registration, recorded⟩ := counted.recorded
  let registry := Registry.ofNodes registration nodes
  have listed : registry.Listed := Registry.ofNodes_listed recorded.own
  have same : registry.heap = heap := recorded.heap_eq counted.listed
  choose! chain walks using fun link member => counted.walks link (List.mem_append_left _ member)
  have given : (references.map chain).map Chain.node? = references := by
    rw [List.map_map]
    exact (List.map_congr_left fun link member => (walks link member).node?_eq).trans
      (List.map_id references)
  have links : ((registry.links (references.map chain)).map Chain.node?).Perm
      (references ++ nodes.map heap.parent) := by
    rw [listed.node?_links, given, same]
    exact ((recorded.ids_perm counted.distinct counted.listed).map _).append_left _
  refine ⟨registry, references.map chain, same, given, listed, fun reached member => ?_, ?_,
    fun id => ?_⟩
  · -- Of a registered crosser the link leads to what is around it.
    rcases List.mem_append.mp member with reference | outward
    · obtain ⟨link, given, rfl⟩ := List.mem_map.mp reference
      exact recorded.has counted.listed (walks link given)
    · obtain ⟨inner, registered, rfl⟩ := List.mem_map.mp outward
      have known := listed.listed.mp registered
      rw [Recorded.find? counted.listed, Option.map_eq_some_iff] at known
      obtain ⟨node, present, made⟩ := known
      obtain ⟨outer, walks, shown⟩ := recorded.node _ node present
      rw [← made, shown]
      exact recorded.has counted.listed walks
  · intro id registration known
    rw [Recorded.find? counted.listed, Option.map_eq_some_iff] at known
    obtain ⟨node, present, rfl⟩ := known
    obtain ⟨outer, -, made⟩ := recorded.node id node present
    rw [made]
    exact (counted.counts id node present).1
  · rw [Chain.pointing_eq_count, links.count_eq, Registry.holders,
      Recorded.find? counted.listed]
    cases present : heap id with
    | none =>
        refine (List.count_eq_zero.mpr fun linked => ?_).symm
        simpa [present] using counted.isSome_of_mem linked
    | some node =>
        obtain ⟨outer, -, made⟩ := recorded.node id node present
        rw [← (counted.counts id node present).2, Option.map_some, Option.map_some, made]
        rfl

/-! ## Dropping a reference -/

/-- Whatever heap of whatever shape: dropping a reference comes to its end, and takes away
just the nodes that no other reference leads to.  A recursive drop takes away the same. -/
theorem Counted.drop (counted : heap.Counted nodes (link :: references)) :
    ∃ after freed nested rest enough,
      (∀ rounds, enough ≤ rounds → heap.drop rounds link = some (after, freed)) ∧
      (∀ depth, enough ≤ depth → heap.dropNested depth link = some (after, nested)) ∧
      nested.Perm freed ∧ nodes.Perm (freed ++ rest) ∧ heap.Sheds references freed after ∧
      after.Counted rest references := by
  obtain ⟨registry, chains, rfl, given, counts⟩ := counted.exists_registry
  obtain ⟨chain, chains, rfl⟩ : ∃ chain others, chains = chain :: others := by
    cases chains with
    | nil => contradiction
    | cons chain others => exact ⟨chain, others, rfl⟩
  obtain ⟨rfl, rfl⟩ := List.cons.inj given
  have order := registry.freedInOrder_perm chain
  refine ⟨(registry.release chain).heap, registry.freedInOrder chain,
    ((registry.freed chain).map Crosser.id).reverse,
    (registry.release chain).registrations.map (·.crosser.id), chain.length,
    fun rounds enough => counts.drop_eq enough, fun depth enough => counts.dropNested_eq enough,
    (List.reverse_perm _).trans order.symm, ?_, counts.sheds.perm order.symm,
    counts.release.counted⟩
  have registered : nodes.Perm (registry.registrations.map (·.crosser.id)) := by
    refine (List.perm_ext_iff_of_nodup counted.distinct counts.listed.distinct).mpr fun id => ?_
    rw [counted.listed, counts.listed.isSome_iff]
  have split := counts.freed_perm.map Crosser.id
  rw [List.map_append, List.map_map, List.map_map] at split
  exact registered.trans (split.trans (order.symm.append_right _))

end Heap

end Ambient
