import FactoryMigration.Proofs.History

set_option autoImplicit false

/-! # Requests to a policy cache

A cache that is asked for policies one after another has, after each request, one entry for every pair
of a name and a block that has occurred (`Policy.Cache.Remembers`). So it answers as if every block
were read anew, except that notes are left only where a pair occurs first
(`Policy.Cache.readAll_transparent`). -/

namespace FactoryMigration.Policy

/-! ## Requests -/

/-- What a cache is asked for: the policy of an activity, with its block if there is one. -/
structure Request where
  activity : String
  block : Option Json

namespace Request

/-- The name and the block of a request, unless the block is missing or null. -/
def pair? (request : Request) : Option (String × Json) :=
  (request.block.filter (!·.isNull)).map fun block => (request.activity, block)

/-- The pairs that occur in requests, one after another. -/
def pairs (requests : List Request) : List (String × Json) :=
  requests.filterMap pair?

/-- The policy of a request: what is read from its block, or none without a block. -/
def policy (request : Request) : Policy :=
  match request.pair? with
  | .none => Policy.none
  | some pair => (ofBlock pair.2).value

/-- The notes on a request after others: those on its block where its pair occurs first. -/
def notesAfter (earlier : List Request) (request : Request) : List Note :=
  match request.pair? with
  | .none => []
  | some pair => if pair ∈ pairs earlier then [] else (ofBlock pair.2).notes

theorem pairs_concat (earlier : List Request) (request : Request) :
    pairs (earlier ++ [request]) = pairs earlier ++ request.pair?.toList := by
  rw [pairs, List.filterMap_append]
  cases hpair : request.pair? <;> simp [pairs, hpair]

theorem pair?_eq_none {request : Request} (h : request.block.filter (!·.isNull) = .none) :
    request.pair? = .none := by
  rw [pair?, h]
  rfl

theorem pair?_eq_some {request : Request} {block : Json}
    (h : request.block.filter (!·.isNull) = some block) :
    request.pair? = some (request.activity, block) := by
  rw [pair?, h]
  rfl

end Request

namespace Cache

/-- The answers of a cache to requests one after another, and the cache after them. -/
def readAll (cache : Cache) : List Request → List (Noted Policy) × Cache
  | [] => ([], cache)
  | request :: rest =>
    let read := cache.read request.activity request.block
    let others := read.2.readAll rest
    (read.1 :: others.1, others.2)

theorem readAll_concat (cache : Cache) (earlier : List Request) (request : Request) :
    cache.readAll (earlier ++ [request])
      = ((cache.readAll earlier).1
            ++ [((cache.readAll earlier).2.read request.activity request.block).1],
          ((cache.readAll earlier).2.read request.activity request.block).2) := by
  induction earlier generalizing cache with
  | nil => rfl
  | cons first earlier ih => simp only [List.cons_append, readAll, ih]

/-! ## What a cache remembers -/

/-- The entry for a pair. -/
def entry (pair : String × Json) : String × Policy :=
  (key pair.1 pair.2, (ofBlock pair.2).value)

/-- The cache has one entry for each of the pairs and no other, the latest one first. -/
def Remembers (cache : Cache) (pairs : List (String × Json)) : Prop :=
  cache.entries = (pairs.eraseDups.map entry).reverse

theorem eraseDups_concat_of_mem {α : Type} [BEq α] [LawfulBEq α] {items : List α} {item : α}
    (h : item ∈ items) : (items ++ [item]).eraseDups = items.eraseDups := by
  simp [List.eraseDups_append, List.removeAll, h]

theorem eraseDups_concat_of_not_mem {α : Type} [BEq α] [LawfulBEq α] {items : List α} {item : α}
    (h : item ∉ items) : (items ++ [item]).eraseDups = items.eraseDups ++ [item] := by
  simp [List.eraseDups_append, List.eraseDups_cons, List.removeAll, h]

namespace Remembers

variable {cache : Cache} {pairs : List (String × Json)} {pair : String × Json}

theorem mem_entries_iff (h : cache.Remembers pairs) {found : String × Policy} :
    found ∈ cache.entries ↔ ∃ pair ∈ pairs, entry pair = found := by
  rw [h, List.mem_reverse, List.mem_map]
  simp only [List.mem_eraseDups]

theorem sound (h : cache.Remembers pairs) : cache.Sound := by
  intro found hfound
  obtain ⟨pair, -, rfl⟩ := h.mem_entries_iff.mp hfound
  exact ⟨pair.1, pair.2, rfl⟩

theorem size (h : cache.Remembers pairs) : cache.size = pairs.eraseDups.length := by
  rw [Cache.size, h, List.length_reverse, List.length_map]

theorem lookup_of_mem (h : cache.Remembers pairs) (hmem : pair ∈ pairs) :
    cache.entries.lookup (key pair.1 pair.2) = some (ofBlock pair.2).value := by
  have hsome : (cache.entries.lookup (key pair.1 pair.2)).isSome = true :=
    List.lookup_isSome_iff.mpr
      ⟨entry pair, h.mem_entries_iff.mpr ⟨pair, hmem, rfl⟩, beq_self_eq_true _⟩
  obtain ⟨policy, hpolicy⟩ := Option.isSome_iff_exists.mp hsome
  rw [hpolicy, h.sound.eq_of_lookup hpolicy]

/-- No other pair has the key of a pair, so a new pair is not found. -/
theorem lookup_of_not_mem (h : cache.Remembers pairs) (hnew : pair ∉ pairs) :
    cache.entries.lookup (key pair.1 pair.2) = Option.none := by
  refine List.lookup_eq_none_iff.mpr fun found hfound => ?_
  obtain ⟨other, hother, rfl⟩ := h.mem_entries_iff.mp hfound
  refine bne_iff_ne.mpr fun hkey => hnew ?_
  obtain ⟨hactivity, hblock⟩ := key_injective hkey
  rwa [Prod.ext hactivity hblock]

theorem cons (h : cache.Remembers pairs) (hnew : pair ∉ pairs) :
    Remembers ⟨entry pair :: cache.entries⟩ (pairs ++ [pair]) := by
  rw [Remembers, eraseDups_concat_of_not_mem hnew, List.map_append, List.reverse_append, h]
  rfl

theorem of_mem (h : cache.Remembers pairs) (hmem : pair ∈ pairs) :
    cache.Remembers (pairs ++ [pair]) := by
  rw [Remembers, eraseDups_concat_of_mem hmem]
  exact h

/-- **One request.** A cache that remembers the pairs of earlier requests answers with the policy of
the request and leaves notes only on a new pair, which it remembers then. -/
theorem read {earlier : List Request} (h : cache.Remembers (Request.pairs earlier))
    (request : Request) :
    (cache.read request.activity request.block).1 = ⟨request.policy, request.notesAfter earlier⟩ ∧
      (cache.read request.activity request.block).2.Remembers
        (Request.pairs (earlier ++ [request])) := by
  unfold Cache.read Request.policy Request.notesAfter
  rw [Request.pairs_concat]
  cases hblock : request.block.filter (!·.isNull) with
  | none =>
    rw [Request.pair?_eq_none hblock]
    exact ⟨rfl, by simpa using h⟩
  | some block =>
    rw [Request.pair?_eq_some hblock]
    by_cases hmem : (request.activity, block) ∈ Request.pairs earlier
    · have hknown := h.lookup_of_mem hmem
      dsimp only at hknown ⊢
      rw [hknown, if_pos hmem]
      exact ⟨rfl, h.of_mem hmem⟩
    · have hnew := h.lookup_of_not_mem hmem
      dsimp only at hnew ⊢
      rw [hnew, if_neg hmem]
      exact ⟨rfl, h.cons hmem⟩

end Remembers

/-! ## Runs of requests -/

theorem remembers_readAll (requests : List Request) :
    (empty.readAll requests).2.Remembers (Request.pairs requests) := by
  induction requests using List.reverseRecOn with
  | nil => rfl
  | append_singleton earlier request ih =>
    rw [readAll_concat]
    exact (ih.read request).2

theorem answers_readAll (requests : List Request) :
    (empty.readAll requests).1 = requests.mapIdx fun i request =>
      ⟨request.policy, request.notesAfter (requests.take i)⟩ := by
  induction requests using List.reverseRecOn with
  | nil => rfl
  | append_singleton earlier request ih =>
    have hearlier : (earlier.mapIdx fun i request' =>
          (⟨request'.policy, request'.notesAfter ((earlier ++ [request]).take i)⟩ : Noted Policy))
        = earlier.mapIdx fun i request' => ⟨request'.policy, request'.notesAfter (earlier.take i)⟩ :=
      List.mapIdx_eq_mapIdx_iff.mpr fun i hi => by rw [List.take_append_of_le_length hi.le]
    rw [readAll_concat, ((remembers_readAll earlier).read request).1, ih, List.mapIdx_concat, hearlier,
      List.take_left]

theorem notes_readAll (requests : List Request) :
    (empty.readAll requests).1.flatMap Noted.notes
      = (Request.pairs requests).eraseDups.flatMap fun pair => (ofBlock pair.2).notes := by
  induction requests using List.reverseRecOn with
  | nil => rfl
  | append_singleton earlier request ih =>
    rw [readAll_concat, ((remembers_readAll earlier).read request).1, List.flatMap_append, ih,
      List.flatMap_singleton, Request.pairs_concat, Request.notesAfter]
    cases hpair : request.pair? with
    | none => simp
    | some pair =>
      by_cases hmem : pair ∈ Request.pairs earlier
      · simp [hmem, eraseDups_concat_of_mem hmem]
      · simp [hmem, eraseDups_concat_of_not_mem hmem]

theorem record_record (log : Log) (first second : List Note) :
    (log.record first).record second = log.record (first ++ second) := by
  simp only [Log.record, List.map_append, ← Log.append_append]
  rfl

/-- A conversion that asks a cache one request after another has its answers and records its notes. -/
theorem traverse_policy (requests : List Request) (cache : Cache) (log : Log) :
    Conversion.traverse (fun request => Conversion.policy request.activity request.block) requests
        ⟨cache, log⟩
      = (.ok ((cache.readAll requests).1.map Noted.value),
          ⟨(cache.readAll requests).2, log.record ((cache.readAll requests).1.flatMap Noted.notes)⟩) := by
  induction requests generalizing cache log with
  | nil => simp [readAll, Conversion.traverse, Conversion.done, Log.record, Log.append]
  | cons request rest ih =>
    have hpolicy : Conversion.policy request.activity request.block ⟨cache, log⟩
        = (.ok (cache.read request.activity request.block).1.value,
            ⟨(cache.read request.activity request.block).2,
              log.record (cache.read request.activity request.block).1.notes⟩) := rfl
    rw [Conversion.traverse, Conversion.bind_of_ok hpolicy, Conversion.bind_of_ok (ih _ _)]
    simp only [readAll, List.map_cons, List.flatMap_cons, ← record_record]
    rfl

/-- **Transparency.** A new cache answers every request with the policy that is read from its block, or
with none without a block. The notes on a pair of a name and a block are left where the pair occurs
first and never again, and the size of the cache is the number of different pairs so far. A conversion
that asks the cache gets these policies and records these notes. -/
theorem readAll_transparent (requests : List Request) (log : Log) :
    (empty.readAll requests).1 = requests.mapIdx (fun i request =>
        ⟨request.policy, request.notesAfter (requests.take i)⟩) ∧
      (empty.readAll requests).1.flatMap Noted.notes
        = (Request.pairs requests).eraseDups.flatMap (fun pair => (ofBlock pair.2).notes) ∧
      (empty.readAll requests).2.size = (Request.pairs requests).eraseDups.length ∧
      Conversion.traverse (fun request => Conversion.policy request.activity request.block) requests
          ⟨empty, log⟩
        = (.ok (requests.map Request.policy), ⟨(empty.readAll requests).2,
            log.record ((Request.pairs requests).eraseDups.flatMap fun pair =>
              (ofBlock pair.2).notes)⟩) := by
  have hpolicies : (empty.readAll requests).1.map Noted.value = requests.map Request.policy := by
    rw [answers_readAll]
    exact List.ext_getElem (by simp) (by simp)
  refine ⟨answers_readAll requests, notes_readAll requests, (remembers_readAll requests).size, ?_⟩
  rw [traverse_policy, hpolicies, notes_readAll]

end Cache

end FactoryMigration.Policy
