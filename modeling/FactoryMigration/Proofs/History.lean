import FactoryMigration.Pipeline
import FactoryMigration.Proofs.CompactText
import FactoryMigration.Proofs.ConversionSteps

set_option autoImplicit false

/-! # Sessions without a past

What a session did before does not show in the activity it converts next. It has read policies, so it
may leave out notes on policies that a new session leaves (`Session.convert_history`). What carries
this is that every remembered policy is that of its block (`Policy.Cache.Sound`), since no two blocks
have one key. -/

namespace FactoryMigration

/-! ## The policy cache -/

namespace Policy

/-- The properties that notes on policies are about. -/
def properties : List String :=
  ["secure_input", "secure_output", "timeout", "retry", "retry_interval_in_seconds"]

theorem property_of_mem_noteFlag {block : Json} {key message : String} {note : Note}
    (h : note ∈ (noteFlag block key message).notes) : note.property = key := by
  unfold noteFlag at h
  split at h
  · obtain rfl := List.mem_singleton.mp h
    rfl
  · exact absurd h List.not_mem_nil

theorem property_of_mem_setting {block : Json} {key : String} {read : Json → Option Nat}
    {complaint : String → String} {note : Note} (h : note ∈ (setting block key read complaint).notes) :
    note.property = key := by
  unfold setting at h
  split at h
  · exact absurd h List.not_mem_nil
  · split at h
    · exact absurd h List.not_mem_nil
    · obtain rfl := List.mem_singleton.mp h
      rfl

theorem property_of_mem_ofBlock {block : Json} {note : Note} (h : note ∈ (ofBlock block).notes) :
    note.property ∈ properties := by
  simp only [ofBlock, Noted.notes_bind, Noted.notes_pure, List.append_nil, List.mem_append] at h
  unfold properties
  rcases h with h | h | h | h | h
  · simp [property_of_mem_noteFlag h]
  · simp [property_of_mem_noteFlag h]
  · simp [property_of_mem_setting h]
  · simp [property_of_mem_setting h]
  · simp [property_of_mem_setting h]

namespace Cache

/-- The last occurrence of a character shows where a list was joined. -/
theorem append_cons_inj {z : Char} {before before' after after' : List Char} (h : z ∉ after)
    (h' : z ∉ after') (heq : before ++ z :: after = before' ++ z :: after') :
    before = before' ∧ after = after' := by
  rcases List.append_eq_append_iff.mp heq with ⟨more, rfl, hafter⟩ | ⟨more, rfl, hafter⟩
  · cases more with
    | nil => exact ⟨(List.append_nil _).symm, (List.cons.inj hafter).2⟩
    | cons c more =>
      have hmem : z ∈ after := by
        rw [(List.cons.inj hafter).2]
        exact List.mem_append_right _ List.mem_cons_self
      exact absurd hmem h
  · cases more with
    | nil => exact ⟨List.append_nil _, (List.cons.inj hafter).2.symm⟩
    | cons c more =>
      have hmem : z ∈ after' := by
        rw [(List.cons.inj hafter).2]
        exact List.mem_append_right _ List.mem_cons_self
      exact absurd hmem h'

/-- The key of a block shows the activity name and the block, whatever characters the name has: the
last zero character stands between them. -/
theorem key_injective {activity activity' : String} {block block' : Json}
    (h : key activity block = key activity' block') : activity = activity' ∧ block = block' := by
  have hlist : activity.toList ++ '\x00' :: block.compact.toList
      = activity'.toList ++ '\x00' :: block'.compact.toList := by
    have := congrArg String.toList h
    simpa [key, String.toList_append] using this
  obtain ⟨hactivity, hblock⟩ := append_cons_inj (Json.zero_not_mem_compact block)
    (Json.zero_not_mem_compact block') hlist
  exact ⟨String.toList_injective hactivity, Json.compact_injective (String.toList_injective hblock)⟩

/-- Every entry is the policy of a block, under a key of that block. -/
def Sound (cache : Cache) : Prop :=
  ∀ entry ∈ cache.entries, ∃ activity block, entry = (key activity block, (ofBlock block).value)

/-- The first cache has every key of the second one. -/
def Covers (used fresh : Cache) : Prop :=
  ∀ key, (fresh.entries.lookup key).isSome = true → (used.entries.lookup key).isSome = true

theorem sound_empty : Sound empty :=
  fun _ h => absurd h List.not_mem_nil

/-- What a sound cache remembers under the key of a block is the policy of the block. -/
theorem Sound.eq_of_lookup {cache : Cache} (hsound : cache.Sound) {activity : String} {block : Json}
    {policy : Policy} (h : cache.entries.lookup (key activity block) = some policy) :
    policy = (ofBlock block).value := by
  obtain ⟨before, after, hentries, -⟩ := List.lookup_eq_some_iff.mp h
  have hmem : (key activity block, policy) ∈ cache.entries := by
    rw [hentries]
    exact List.mem_append_right _ List.mem_cons_self
  obtain ⟨activity', block', hentry⟩ := hsound _ hmem
  obtain ⟨hkey, rfl⟩ := Prod.mk.inj hentry
  obtain ⟨-, rfl⟩ := key_injective hkey
  rfl

theorem Sound.cons {cache : Cache} (hsound : cache.Sound) (activity : String) (block : Json) :
    Sound ⟨(key activity block, (ofBlock block).value) :: cache.entries⟩ := by
  intro entry h
  rcases List.mem_cons.mp h with rfl | h
  · exact ⟨activity, block, rfl⟩
  · exact hsound entry h

theorem Covers.cons_right {used fresh : Cache} (hcovers : Covers used fresh) {key : String}
    (h : (used.entries.lookup key).isSome = true) (policy : Policy) :
    Covers used ⟨(key, policy) :: fresh.entries⟩ := by
  intro other hother
  rw [Table.lookup_cons] at hother
  split at hother
  · subst other
    exact h
  · exact hcovers other hother

theorem Covers.cons {used fresh : Cache} (hcovers : Covers used fresh) (key : String)
    (policy : Policy) :
    Covers ⟨(key, policy) :: used.entries⟩ ⟨(key, policy) :: fresh.entries⟩ := by
  intro other hother
  rw [Table.lookup_cons] at hother ⊢
  split
  · rfl
  · rename_i hne
    rw [if_neg hne] at hother
    exact hcovers other hother

theorem Covers.lookup_eq_none {used fresh : Cache} (hcovers : Covers used fresh) {key : String}
    (h : used.entries.lookup key = Option.none) : fresh.entries.lookup key = Option.none := by
  cases hfresh : fresh.entries.lookup key with
  | none => rfl
  | some known =>
    have hsome := hcovers key (by rw [hfresh]; rfl)
    rw [h] at hsome
    cases hsome

end Cache

end Policy

/-! ## Diagnostics that a past leaves out -/

/-- A diagnostic on a setting of a policy. -/
def Diagnostic.isPolicy (diagnostic : Diagnostic) : Bool :=
  Policy.properties.contains diagnostic.property

/-- The first list is the second one, from which only diagnostics on policies may be missing. -/
structure Abridges (shorter longer : List Diagnostic) : Prop where
  sublist : shorter.Sublist longer
  others : shorter.filter (!·.isPolicy) = longer.filter (!·.isPolicy)

namespace Abridges

theorem refl (diagnostics : List Diagnostic) : Abridges diagnostics diagnostics :=
  ⟨List.Sublist.refl _, rfl⟩

theorem append {shorter longer shorter' longer' : List Diagnostic} (h : Abridges shorter longer)
    (h' : Abridges shorter' longer') : Abridges (shorter ++ shorter') (longer ++ longer') :=
  ⟨h.sublist.append h'.sublist, by rw [List.filter_append, List.filter_append, h.others, h'.others]⟩

theorem nil_of_isPolicy {diagnostics : List Diagnostic}
    (h : ∀ diagnostic ∈ diagnostics, diagnostic.isPolicy = true) : Abridges [] diagnostics := by
  refine ⟨List.nil_sublist _, ?_⟩
  rw [List.filter_nil, eq_comm, List.filter_eq_nil_iff]
  intro diagnostic hmem
  simp [h diagnostic hmem]

end Abridges

theorem Log.property_tag (log : Log) (note : Note) : (log.tag note).property = note.property := by
  unfold Log.tag
  split
  · rfl
  · rfl

theorem Policy.abridges_notes (block : Json) (log : Log) :
    Abridges [] ((ofBlock block).notes.map log.tag) := by
  refine .nil_of_isPolicy fun diagnostic hmem => ?_
  obtain ⟨note, hnote, rfl⟩ := List.mem_map.mp hmem
  rw [Diagnostic.isPolicy, Log.property_tag]
  exact List.elem_eq_true_of_mem (property_of_mem_ofBlock hnote)

/-- The innermost scope alone decides the tags of notes. -/
theorem Log.tag_congr {log log' : Log} (h : log.scopes.head? = log'.scopes.head?) :
    log.tag = log'.tag := by
  funext note
  have htag (l : Log) :
      l.tag note = (l.scopes.head?.map fun scope => scope.tag note).getD note.untagged := by
    unfold Log.tag
    cases l.scopes with
    | nil => rfl
    | cons scope outer => rfl
  rw [htag log, htag log', h]

theorem Log.append_nil (log : Log) : log.append [] = log := by
  unfold Log.append
  rw [List.append_nil]

theorem Log.append_append (log : Log) (first second : List Diagnostic) :
    (log.append first).append second = log.append (first ++ second) := by
  unfold Log.append
  rw [List.append_assoc]

/-! ## Two runs of a conversion -/

/-- Both memories are sound, and the first one has read all policies that the second one has. -/
structure Memory.Covers (used fresh : Memory) : Prop where
  used_sound : used.cache.Sound
  fresh_sound : fresh.cache.Sound
  keys : used.cache.Covers fresh.cache

/-- Two runs go on from memories `used` and `fresh` to `used'` and `fresh'`: what the first one records
abridges what the second one records. -/
structure Memory.GoOn (used fresh used' fresh' : Memory) : Prop where
  recorded : ∃ added added', used'.log = used.log.append added ∧
    fresh'.log = fresh.log.append added' ∧ Abridges added added'
  covers : used'.Covers fresh'

namespace Memory

variable {used fresh used' fresh' used'' fresh'' : Memory}

theorem GoOn.refl (h : used.Covers fresh) : GoOn used fresh used fresh :=
  ⟨⟨[], [], (Log.append_nil _).symm, (Log.append_nil _).symm, .refl []⟩, h⟩

theorem GoOn.trans (h : GoOn used fresh used' fresh') (h' : GoOn used' fresh' used'' fresh'') :
    GoOn used fresh used'' fresh'' := by
  obtain ⟨added, added', hused, hfresh, habridges⟩ := h.recorded
  obtain ⟨more, more', hused', hfresh', habridges'⟩ := h'.recorded
  refine ⟨⟨added ++ more, added' ++ more', ?_, ?_, habridges.append habridges'⟩, h'.covers⟩
  · rw [hused', hused, Log.append_append]
  · rw [hfresh', hfresh, Log.append_append]

theorem GoOn.scopes (h : GoOn used fresh used' fresh') :
    used'.log.scopes = used.log.scopes ∧ fresh'.log.scopes = fresh.log.scopes := by
  obtain ⟨added, added', hused, hfresh, -⟩ := h.recorded
  rw [hused, hfresh]
  exact ⟨rfl, rfl⟩

end Memory

namespace Conversion

variable {α β : Type}

/-- From both memories the conversion ends with the same result, and the two runs go on together. -/
structure EndsAlike (c : Conversion α) (used fresh : Memory) : Prop where
  result : (c used).1 = (c fresh).1
  goOn : Memory.GoOn used fresh (c used).2 (c fresh).2

theorem EndsAlike.of_result {c : Conversion α} {used fresh used' fresh' : Memory}
    {result : Except Failure α} (hused : c used = (result, used'))
    (hfresh : c fresh = (result, fresh')) (h : Memory.GoOn used fresh used' fresh') :
    EndsAlike c used fresh :=
  ⟨by rw [hused, hfresh], by rw [hused, hfresh]; exact h⟩

/-- A conversion that goes on with another one ends alike if the other one does. -/
theorem EndsAlike.of_next {c : Conversion α} {next : Conversion α}
    {used fresh used' fresh' : Memory} (hused : c used = next used') (hfresh : c fresh = next fresh')
    (h : Memory.GoOn used fresh used' fresh') (hnext : EndsAlike next used' fresh') :
    EndsAlike c used fresh :=
  ⟨by rw [hused, hfresh, hnext.result], by rw [hused, hfresh]; exact h.trans hnext.goOn⟩

/-- In the same scope the conversion ends alike, whatever was read before. -/
def Oblivious (c : Conversion α) : Prop :=
  ∀ used fresh : Memory, used.Covers fresh →
    used.log.scopes.head? = fresh.log.scopes.head? → EndsAlike c used fresh

/-- What follows runs that went on together from the same scope. -/
theorem Oblivious.after {c : Conversion α} (hc : Oblivious c) {used fresh used' fresh' : Memory}
    (h : Memory.GoOn used fresh used' fresh')
    (hscope : used.log.scopes.head? = fresh.log.scopes.head?) : EndsAlike c used' fresh' := by
  refine hc used' fresh' h.covers ?_
  rw [h.scopes.1, h.scopes.2, hscope]

theorem Oblivious.ofExcept (result : Except Failure α) : Oblivious (ofExcept result) :=
  fun _ _ hcovers _ => ⟨rfl, .refl hcovers⟩

theorem Oblivious.record (notes : List Note) : Oblivious (record notes) := by
  intro used fresh hcovers hscope
  have htags : Abridges (notes.map used.log.tag) (notes.map fresh.log.tag) := by
    rw [Log.tag_congr hscope]
    exact .refl _
  exact ⟨rfl, ⟨_, _, rfl, rfl, htags⟩, hcovers.used_sound, hcovers.fresh_sound, hcovers.keys⟩

theorem Oblivious.bind {c : Conversion α} {f : α → Conversion β} (hc : Oblivious c)
    (hf : ∀ value, Oblivious (f value)) : Oblivious (c >>= f) := by
  intro used fresh hcovers hscope
  obtain ⟨hresult, hgoOn⟩ := hc used fresh hcovers hscope
  rcases hused : c used with ⟨result, used'⟩
  rcases hfresh : c fresh with ⟨result', fresh'⟩
  rw [hused, hfresh] at hresult hgoOn
  obtain rfl : result = result' := hresult
  cases result with
  | error failure => exact .of_result (bind_of_error hused) (bind_of_error hfresh) hgoOn
  | ok value =>
    exact .of_next (bind_of_ok hused) (bind_of_ok hfresh) hgoOn ((hf value).after hgoOn hscope)

/-- In a scope of its own a conversion ends alike also where the scopes around it differ. -/
theorem Oblivious.inScope_endsAlike {c : Conversion α} (h : Oblivious c) (scope : Scope)
    {used fresh : Memory} (hcovers : used.Covers fresh) :
    EndsAlike (inScope scope c) used fresh := by
  have hentered : Memory.Covers { used with log := used.log.enter scope }
      { fresh with log := fresh.log.enter scope } :=
    ⟨hcovers.used_sound, hcovers.fresh_sound, hcovers.keys⟩
  -- both runs are now in one scope; when they leave it, each is back in its own scopes
  obtain ⟨hresult, hrecorded, hcovers'⟩ := h _ _ hentered rfl
  obtain ⟨added, added', hused, hfresh, habridges⟩ := hrecorded
  refine ⟨hresult, ⟨added, added', ?_, ?_, habridges⟩, hcovers'.used_sound, hcovers'.fresh_sound,
    hcovers'.keys⟩
  · show (c { used with log := used.log.enter scope }).2.log.exit = used.log.append added
    rw [hused]
    rfl
  · show (c { fresh with log := fresh.log.enter scope }).2.log.exit = fresh.log.append added'
    rw [hfresh]
    rfl

theorem Oblivious.inScope {c : Conversion α} (scope : Scope) (h : Oblivious c) :
    Oblivious (inScope scope c) :=
  fun _ _ hcovers _ => h.inScope_endsAlike scope hcovers

theorem Oblivious.recover {c : Conversion α} {handle : Failure → Option (Conversion α)}
    (hc : Oblivious c) (hhandle : ∀ failure next, handle failure = some next → Oblivious next) :
    Oblivious (recover c handle) := by
  intro used fresh hcovers hscope
  obtain ⟨hresult, hgoOn⟩ := hc used fresh hcovers hscope
  rcases hused : c used with ⟨result, used'⟩
  rcases hfresh : c fresh with ⟨result', fresh'⟩
  rw [hused, hfresh] at hresult hgoOn
  obtain rfl : result = result' := hresult
  cases result with
  | ok value =>
    exact .of_result (recover_of_ok hused handle) (recover_of_ok hfresh handle) hgoOn
  | error failure =>
    cases hnext : handle failure with
    | none =>
      exact .of_result (recover_of_none hused hnext) (recover_of_none hfresh hnext) hgoOn
    | some next =>
      exact .of_next (recover_of_some hused hnext) (recover_of_some hfresh hnext) hgoOn
        ((hhandle failure next hnext).after hgoOn hscope)

/-! ## Policies in two runs -/

theorem policy_of_none {name : String} {block : Option Json}
    (h : block.filter (!·.isNull) = none) (memory : Memory) :
    policy name block memory = (.ok Policy.none, { memory with log := memory.log.append [] }) := by
  simp only [policy, Policy.Cache.read, h]
  rfl

theorem policy_of_known {name : String} {block : Option Json} {given : Json} {known : Policy}
    (h : block.filter (!·.isNull) = some given) {memory : Memory}
    (hknown : memory.cache.entries.lookup (Policy.Cache.key name given) = some known) :
    policy name block memory = (.ok known, { memory with log := memory.log.append [] }) := by
  simp only [policy, Policy.Cache.read, h, hknown]
  rfl

theorem policy_of_new {name : String} {block : Option Json} {given : Json}
    (h : block.filter (!·.isNull) = some given) {memory : Memory}
    (hnew : memory.cache.entries.lookup (Policy.Cache.key name given) = none) :
    policy name block memory
      = (.ok (Policy.ofBlock given).value,
          { cache := ⟨(Policy.Cache.key name given, (Policy.ofBlock given).value)
              :: memory.cache.entries⟩
            log := memory.log.record (Policy.ofBlock given).notes }) := by
  simp only [policy, Policy.Cache.read, h, hnew]
  rfl

/-- A policy that is remembered in one run and read in the other is the same policy. -/
theorem Oblivious.policy (name : String) (block : Option Json) : Oblivious (policy name block) := by
  intro used fresh hcovers hscope
  have hunchanged : Memory.GoOn used fresh { used with log := used.log.append [] }
      { fresh with log := fresh.log.append [] } :=
    ⟨⟨[], [], rfl, rfl, .refl []⟩, hcovers.used_sound, hcovers.fresh_sound, hcovers.keys⟩
  cases hblock : block.filter (!·.isNull) with
  | none => exact .of_result (policy_of_none hblock used) (policy_of_none hblock fresh) hunchanged
  | some given =>
    cases hused : used.cache.entries.lookup (Policy.Cache.key name given) with
    | some known =>
      obtain rfl := hcovers.used_sound.eq_of_lookup hused
      cases hfresh : fresh.cache.entries.lookup (Policy.Cache.key name given) with
      | some known' =>
        obtain rfl := hcovers.fresh_sound.eq_of_lookup hfresh
        exact .of_result (policy_of_known hblock hused) (policy_of_known hblock hfresh) hunchanged
      | none =>
        -- only the second run reads the block, so the first one lacks the notes on it
        have hnotes := Policy.abridges_notes given fresh.log
        have hkey : (used.cache.entries.lookup (Policy.Cache.key name given)).isSome = true := by
          rw [hused]
          rfl
        exact .of_result (policy_of_known hblock hused) (policy_of_new hblock hfresh)
          ⟨⟨[], _, rfl, rfl, hnotes⟩, hcovers.used_sound, hcovers.fresh_sound.cons name given,
            hcovers.keys.cons_right hkey _⟩
    | none =>
      have hfresh := hcovers.keys.lookup_eq_none hused
      have htags : Abridges ((Policy.ofBlock given).notes.map used.log.tag)
          ((Policy.ofBlock given).notes.map fresh.log.tag) := by
        rw [Log.tag_congr hscope]
        exact .refl _
      exact .of_result (policy_of_new hblock hused) (policy_of_new hblock hfresh)
        ⟨⟨_, _, rfl, rfl, htags⟩, hcovers.used_sound.cons name given,
          hcovers.fresh_sound.cons name given, hcovers.keys.cons _ _⟩

end Conversion

open Conversion (Oblivious EndsAlike)

/-! ## Activities in two runs -/

theorem Conversion.closed_oblivious : Closed @Oblivious where
  ofExcept := .ofExcept
  record := .record
  policy := .policy
  bind := .bind
  inScope scope _ hc := hc.inScope scope
  recover := .recover

/-- **Activities.** From memories of which the first one has read more policies, the conversion of an
activity ends alike, in whatever scopes it starts. -/
theorem convert_endsAlike (strict inLoop : Bool) (activity : Json) {used fresh : Memory}
    (hcovers : used.Covers fresh) : EndsAlike (convert strict inLoop activity) used fresh := by
  have hinside : Oblivious (Task.ofDefinition activity >>= workOf strict inLoop activity) :=
    Oblivious.bind (Conversion.closed_oblivious.ofDefinition activity)
      (Conversion.closed_oblivious.workOf strict inLoop activity)
  -- an activity opens a scope of its own, so nothing is asked of the scopes around it
  rw [convert_eq_workOf]
  exact hinside.inScope_endsAlike _ hcovers

/-! ## Sessions -/

namespace Session

/-- What can be asked of a session. -/
inductive Call where
  | convert (activity : Json)
  | convertAll (activities : List Json)
  | enter (scope : Scope)
  | exit
  | record (notes : List Note)

/-- The session after a call, whether the call succeeded or not. -/
def call (session : Session) : Call → Session
  | .convert activity => (session.convert activity).2
  | .convertAll activities => (session.convertAll activities).2
  | .enter scope => session.enter scope
  | .exit => session.exit
  | .record notes => session.record notes

/-- The session after calls, one after another. -/
def run (session : Session) (calls : List Call) : Session :=
  calls.foldl call session

/-- What every session keeps: the mode it was started in and a sound cache. -/
structure Valid (strict : Bool) (session : Session) : Prop where
  mode : session.strict = strict
  sound : session.cache.Sound

theorem valid_start (strict : Bool) : Valid strict (start strict) :=
  ⟨rfl, Policy.Cache.sound_empty⟩

variable {strict : Bool} {session : Session}

theorem Valid.convert (h : Valid strict session) (activity : Json) :
    Valid strict (session.convert activity).2 := by
  have hself : Memory.Covers session.toMemory session.toMemory := ⟨h.sound, h.sound, fun _ => id⟩
  exact ⟨h.mode, (convert_endsAlike session.strict false activity hself).goOn.covers.used_sound⟩

theorem Valid.convertAll (h : Valid strict session) (activities : List Json) :
    Valid strict (session.convertAll activities).2 := by
  induction activities generalizing session with
  | nil => exact h
  | cons activity rest ih =>
    have hfirst := h.convert activity
    unfold Session.convertAll
    rcases hconvert : session.convert activity with ⟨failure | first, after⟩
    · rw [hconvert] at hfirst
      exact hfirst
    · rw [hconvert] at hfirst
      exact ih hfirst

theorem Valid.call (h : Valid strict session) (call : Call) : Valid strict (session.call call) := by
  cases call with
  | convert activity => exact h.convert activity
  | convertAll activities => exact h.convertAll activities
  | enter scope => exact ⟨h.mode, h.sound⟩
  | exit => exact ⟨h.mode, h.sound⟩
  | record notes => exact ⟨h.mode, h.sound⟩

theorem Valid.run (h : Valid strict session) (calls : List Call) :
    Valid strict (session.run calls) := by
  induction calls generalizing session with
  | nil => exact h
  | cons call calls ih => exact ih (h.call call)

/-- **History.** Whatever was asked of a session before, an activity converts to what it converts to
in a new session. The session records what the new one records, except that notes on policies may be
missing. -/
theorem convert_history (strict : Bool) (calls : List Call) (activity : Json) :
    (((start strict).run calls).convert activity).1 = ((start strict).convert activity).1 ∧
      ∃ recorded,
        (((start strict).run calls).convert activity).2.log.entries
          = ((start strict).run calls).log.entries ++ recorded ∧
        Abridges recorded ((start strict).convert activity).2.log.entries := by
  have hvalid : Valid strict ((start strict).run calls) := (valid_start strict).run calls
  generalize (start strict).run calls = used at hvalid
  obtain ⟨memory, mode⟩ := used
  obtain ⟨rfl, hsound⟩ := hvalid
  have hcovers : Memory.Covers memory (start mode).toMemory :=
    ⟨hsound, Policy.Cache.sound_empty, nofun⟩
  obtain ⟨hresult, ⟨recorded, recorded', hused, hfresh, habridges⟩, -⟩ :=
    convert_endsAlike mode false activity hcovers
  refine ⟨hresult, recorded, congrArg Log.entries hused, ?_⟩
  have hentries : ((start mode).convert activity).2.log.entries = recorded' :=
    congrArg Log.entries hfresh
  rw [hentries]
  exact habridges

end Session

end FactoryMigration
