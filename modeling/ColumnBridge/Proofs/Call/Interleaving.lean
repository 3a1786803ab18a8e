import ColumnBridge.Proofs.Call.Accesses
import ColumnBridge.Proofs.Call.Refinement
import ColumnBridge.Proofs.Handle.Separation

/-!
# Interleaved calls

Any number of threads make calls on one registry, each thread choosing its next
call by the answers to those before.  Calls of different threads overlap: only
their single accesses are atomic, and a schedule interleaves these in any order.
`Machine.orderly` says what holds all the same, as long as the allocator gives
out no address twice.  The registry answers every access as its history demands.
A call that succeeds does what it does alone, on the objects behind its handles,
even if other threads give those handles up meanwhile; a call that fails leaves
nothing behind.
-/

namespace ColumnBridge

/-! ## The objects of a history -/

/-- All objects that were ever handed out, under their handles. -/
def adoptedObjects (accesses : List Access) : LiveObjects :=
  ((adoptions accesses).map Prod.toSigma).toFinmap

theorem lookup_adoptedObjects {accesses : List Access}
    (h : ((adoptions accesses).map Prod.fst).Nodup) {handle : Address}
    {object : Object} : (adoptedObjects accesses).lookup handle = some object ↔
      (handle, object) ∈ adoptions accesses := by
  have hkeys : List.NodupKeys ((adoptions accesses).map Prod.toSigma) := by
    rw [List.NodupKeys, List.keys, List.map_map]
    exact h
  rw [adoptedObjects, Finmap.dlookup_list_toFinmap]
  refine (List.mem_dlookup_iff hkeys).trans ?_
  constructor
  · intro hmem
    obtain ⟨⟨_, _⟩, hentry, heq⟩ := List.mem_map.mp hmem
    cases heq
    exact hentry
  · intro hmem
    exact List.mem_map_of_mem hmem

/-- All accesses of a history agree with the objects that were handed out in its
course. -/
theorem Session.AnswersAll.agreesWith {settings : Settings}
    {allocate : Allocator} {s : Session} {accesses : List Access}
    (h : Session.fresh.AnswersAll settings allocate accesses s)
    (hdistinct : allocate.DistinctBelow s.registry.issued) :
    ∀ access ∈ accesses, access.AgreesWith (adoptedObjects accesses) := by
  have hnodup := (h.records hdistinct).nodup_handles hdistinct
  intro access hmem
  obtain ⟨before, after, rfl⟩ := List.append_of_mem hmem
  have hfollows := h.followsFrom hdistinct
  have hearlier : ∀ entry ∈ adoptions before,
      entry ∈ adoptions (before ++ access :: after) := by
    intro entry hentry
    rw [adoptions_append]
    exact List.mem_append_left _ hentry
  rcases access with ⟨object, handle⟩ | ⟨kind, handle, answer⟩ |
    ⟨handle, answer⟩
  · trivial
  · intro value hvalue
    exact (lookup_adoptedObjects hnodup).mpr
      (hearlier _ ((hfollows.1 value).mp hvalue).1)
  · intro hok
    obtain ⟨⟨_, object⟩, hadopted, rfl⟩ := List.mem_map.mp (hfollows.1.mp hok).1
    exact Finmap.mem_of_lookup_eq_some
      ((lookup_adoptedObjects hnodup).mpr (hearlier _ hadopted))

/-! ## Threads that make calls -/

/-- A thread that makes calls, each chosen by the answers to those before. -/
inductive Client (α : Type) where
  | finish (result : α)
  | make (call : Call) (next : Except Error call.Result → Client α)

/-- A call that was made, with the accesses that it performed and its answer. -/
structure MadeCall where
  call : Call
  accesses : List Access
  answer : Except Error call.Result

namespace Client

variable {α : Type}

/-- The accesses of all calls of a thread. -/
def program : Client α → Program α
  | finish result => .done result
  | make call next => call.program.run.bind fun answer => (next answer).program

/-- The accesses of a thread are those of the calls that it made, and of one
that it is about to finish. -/
inductive Makes :
    Client α → List Access → List MadeCall → (pending : List Access) → Prop
  | finished (result : α) : Makes (.finish result) [] [] []
  | underway {call : Call} {next : Except Error call.Result → Client α}
      {pending : List Access}
      {p : Program (Except Error call.Result)}
      (hcall : call.program.run.Reaches pending p)
      (hp : p.result? = none) : Makes (.make call next) pending [] pending
  | answered {call : Call} {next : Except Error call.Result → Client α}
      {answer : Except Error call.Result} {accesses rest pending : List Access}
      {calls : List MadeCall}
      (hcall : call.program.run.Reaches accesses (.done answer))
      (hrest : (next answer).Makes rest calls pending) :
      Makes (.make call next) (accesses ++ rest)
        (⟨call, accesses, answer⟩ :: calls) pending

theorem exists_makes (client : Client α) {accesses : List Access}
    {p : Program α} (h : client.program.Reaches accesses p) :
    ∃ calls pending, client.Makes accesses calls pending := by
  induction client generalizing accesses with
  | finish result =>
      obtain ⟨rfl, -⟩ := Program.reaches_done_iff.mp h
      exact ⟨[], [], .finished result⟩
  | make call next ih =>
      rcases h.of_bind with ⟨q, hq, hresult, -⟩ |
        ⟨before, after, answer, rfl, hcall, hrest⟩
      · exact ⟨[], accesses, .underway hq hresult⟩
      · obtain ⟨calls, pending, hmakes⟩ := ih answer hrest
        exact ⟨⟨call, before, answer⟩ :: calls, pending, .answered hcall hmakes⟩

end Client

/-! ## Calls among others -/

/-- The handles of a call refer in a session to the objects that were handed out
under them. -/
def Call.Finds (call : Call) (history : List Access) (s : Session) : Prop :=
  ∀ handle ∈ call.handles, ∃ object, (handle, object) ∈ adoptions history ∧
    s.registry.lookup? handle = some object

/-- A call that is performed alone succeeds and registers an object, whose
handle it returns. -/
def Call.Creates (settings : Settings) (allocate : Allocator) (call : Call)
    (s : Session) (object : Object) : Prop :=
  ∃ value, (call.perform settings allocate s).1 = .ok value ∧
    call.returnedHandle? value = some (allocate s.registry.issued) ∧
    (call.perform settings allocate s).2.registry.contents =
      s.registry.contents.insert (allocate s.registry.issued) object

/-- What a call did among others is what it does alone, in any session in which
it finds its handles. -/
structure MadeCall.Isolated (settings : Settings) (allocate : Allocator)
    (history : List Access) (made : MadeCall) : Prop where
  resolved : ∀ value, made.answer = .ok value →
    ∀ handle ∈ made.call.handles, handle ∈ (adoptions history).map Prod.fst
  created : ∀ value, made.answer = .ok value →
    ∀ handle ∈ made.call.returnedHandle? value,
    ∃ object, adoptions made.accesses = [(handle, object)] ∧
      releases made.accesses = [] ∧
      ∀ s, made.call.Finds history s →
        made.call.Creates settings allocate s object
  answered :
    ∀ value, made.answer = .ok value → made.call.returnedHandle? value = none →
    adoptions made.accesses = [] ∧
      ∀ s, made.call.Finds history s →
        (made.call.perform settings allocate s).1 = .ok value
  failed : ∀ error, made.answer = .error error → Quiet made.accesses

section Isolation

variable {settings : Settings} {allocate : Allocator} {history : List Access}

/-- A session in which a call finds its handles gives it the effect that it has
on all objects ever handed out. -/
theorem Call.Finds.effect_eq {call : Call} {s : Session}
    (h : call.Finds history s)
    (hnodup : ((adoptions history).map Prod.fst).Nodup) :
    call.effect s.registry.contents = call.effect (adoptedObjects history) := by
  refine Call.effect_congr fun handle hmem => ?_
  obtain ⟨object, hadopted, hlookup⟩ := h handle hmem
  rw [Registry.lookup_contents, hlookup,
    (lookup_adoptedObjects hnodup).mpr hadopted]

/-- A call whose answers agree with the objects that were handed out is
isolated. -/
theorem MadeCall.isolated {made : MadeCall}
    (hmade : made.call.program.run.Reaches made.accesses (.done made.answer))
    (hagrees : ∀ access ∈ made.accesses,
      access.AgreesWith (adoptedObjects history))
    (hnodup : ((adoptions history).map Prod.fst).Nodup) :
    made.Isolated settings allocate history := by
  obtain ⟨call, accesses, answer⟩ := made
  have heffect : ∀ value, answer = .ok value → ∃ effect,
      call.effect (adoptedObjects history) = .ok effect ∧
        effect.Accounts accesses value := by
    rintro value rfl
    exact call.enacts_program.accounts accesses value hmade _ hagrees
  have hperform : ∀ s, call.Finds history s → call.perform settings allocate s =
      Effect.enact settings allocate s
        (call.effect (adoptedObjects history)) := by
    intro s hfinds
    rw [Call.perform_eq_enact, hfinds.effect_eq hnodup]
  -- Whether an effect creates an object can be told from the answer.
  have hreturns := call.returns_effect (adoptedObjects history)
  constructor
  · intro value hvalue handle hhandle
    obtain ⟨effect, hok, -⟩ := heffect value hvalue
    obtain ⟨object, hobject⟩ :=
      Finmap.mem_iff.mp (Call.mem_of_effect_eq_ok hok hhandle)
    exact List.mem_map_of_mem ((lookup_adoptedObjects hnodup).mp hobject)
  · intro value hvalue handle hhandle
    obtain ⟨effect, hok, haccounts⟩ := heffect value hvalue
    have hreturn := hreturns effect hok
    rcases effect with ⟨object, result⟩ | ⟨released, result⟩ | result
    · obtain ⟨new, hadoptions, hreleases, rfl⟩ := haccounts
      obtain rfl : new = handle :=
        Option.some.inj ((hreturn new).symm.trans hhandle)
      refine ⟨object, hadoptions, hreleases, fun s hfinds => ?_⟩
      refine ⟨result (allocate s.registry.issued), ?_, hreturn _, ?_⟩
      · rw [hperform s hfinds, hok, Effect.enact]
      · rw [hperform s hfinds, hok, Effect.enact, Session.contents_adopt]
    · obtain ⟨-, -, rfl⟩ := haccounts
      cases hreturn.symm.trans hhandle
    · obtain ⟨-, rfl⟩ := haccounts
      cases hreturn.symm.trans hhandle
  · intro value hvalue hnone
    obtain ⟨effect, hok, haccounts⟩ := heffect value hvalue
    have hreturn := hreturns effect hok
    rcases effect with ⟨object, result⟩ | ⟨released, result⟩ | result
    · obtain ⟨new, -, -, rfl⟩ := haccounts
      cases (hreturn new).symm.trans hnone
    · obtain ⟨hadoptions, -, rfl⟩ := haccounts
      exact ⟨hadoptions,
        fun s hfinds => by rw [hperform s hfinds, hok, Effect.enact]⟩
    · obtain ⟨hquiet, rfl⟩ := haccounts
      exact ⟨hquiet.1,
        fun s hfinds => by rw [hperform s hfinds, hok, Effect.enact]⟩
  · intro error herror
    change answer = .error error at herror
    subst herror
    refine call.enacts_program.quiet accesses _ hmade ?_
    rintro _ ⟨⟩

/-- All calls of a thread are isolated, and one that is not finished has changed
nothing yet. -/
theorem Client.Makes.isolated {α : Type} {client : Client α}
    {accesses pending : List Access} {calls : List MadeCall}
    (h : client.Makes accesses calls pending)
    (hagrees : ∀ access ∈ accesses, access.AgreesWith (adoptedObjects history))
    (hnodup : ((adoptions history).map Prod.fst).Nodup) :
    (∀ made ∈ calls, made.Isolated settings allocate history) ∧
      Quiet pending := by
  induction h with
  | finished result => exact ⟨nofun, quiet_nil⟩
  | @underway call next pending p hcall hp =>
      refine ⟨nofun, call.enacts_program.quiet pending p hcall ?_⟩
      rintro value rfl
      cases hp
  | @answered call next answer accesses rest pending calls hcall hrest ih =>
      obtain ⟨hcalls, hpending⟩ := ih fun access hmem =>
        hagrees access (List.mem_append_right _ hmem)
      refine ⟨?_, hpending⟩
      intro made hmade
      rcases List.mem_cons.mp hmade with rfl | hmade
      · exact MadeCall.isolated hcall
          (fun access hmem => hagrees access (List.mem_append_left _ hmem))
            hnodup
      · exact hcalls made hmade

end Isolation

/-! ## All interleavings -/

namespace Machine

variable {α : Type}

/-- What is true of threads that share a registry, however their accesses are
interleaved. -/
structure Orderly (settings : Settings) (allocate : Allocator)
    (threads : List (Program α)) (trace : List (Nat × Access))
    (last : Machine α) : Prop where
  /-- No two objects are handed out under one handle. -/
  handles : ((adoptions (trace.map Prod.snd)).map Prod.fst).Nodup
  /-- Every look-up and every release is answered as the accesses before it
  demand. -/
  answers : ∀ before thread access after,
    trace = before ++ (thread, access) :: after →
    access.FollowsFrom (before.map Prod.snd)
  /-- No handle is given up twice. -/
  released : (releases (trace.map Prod.snd)).Nodup
  /-- Of a thread that makes calls, every call is isolated, and one that is not
  finished has changed nothing yet. -/
  calls : ∀ (thread : Nat) (client : Client α),
    threads[thread]? = some client.program →
    ∃ calls pending, client.Makes (accessesOf thread trace) calls pending ∧
      (∀ made ∈ calls, made.Isolated settings allocate (trace.map Prod.snd)) ∧
        Quiet pending
  /-- In the end the registry holds what was handed out and not given up. -/
  registry :
    ∀ handle object, last.session.registry.lookup? handle = some object ↔
    (handle, object) ∈ adoptions (trace.map Prod.snd) ∧
      handle ∉ releases (trace.map Prod.snd)
  /-- Threads that keep to their own objects never fail, end as their programs
  promise, and leave an empty registry unless they mean to leave something. -/
  separate : ∀ post : Nat → α → LiveObjects → Prop,
    (∀ (thread : Nat) (p : Program α), threads[thread]? = some p →
      p.KeepsToItself (post thread) ∅) →
    (∀ entry ∈ trace, entry.2.Succeeds) ∧
      (∀ (thread : Nat) (result : α),
        last.threads[thread]? = some (.done result) →
        ∃ left, post thread result left) ∧
      ((∀ p ∈ last.threads, ∃ result, p = .done result) →
        (∀ thread result left, post thread result left → left = ∅) →
          last.session.registry.contents = ∅)

/-- Threads that start with an empty registry are orderly under every schedule,
as long as the allocator gives out no address twice. -/
theorem orderly (settings : Settings) (allocate : Allocator)
    (threads : List (Program α)) (schedule : List Nat)
    (hdistinct : allocate.DistinctBelow
      ((Machine.mk .fresh threads).follow settings allocate
      schedule).session.registry.issued) :
    Orderly settings allocate threads
      ((Machine.mk .fresh threads).trace settings allocate schedule)
      ((Machine.mk .fresh threads).follow settings allocate schedule) := by
  have hhistory :=
    answersAll_trace settings allocate (Machine.mk .fresh threads) schedule
  have hrecords := hhistory.records hdistinct
  have hnodup := hrecords.nodup_handles hdistinct
  have hagrees := hhistory.agreesWith hdistinct
  constructor
  · exact hnodup
  · intro before thread access after htrace
    rw [htrace, List.map_append, List.map_cons] at hhistory
    exact hhistory.followsFrom hdistinct
  · exact hrecords.nodup_releases
  · intro thread client hclient
    obtain ⟨p, -, hreaches⟩ := reaches_trace settings allocate
      (Machine.mk .fresh threads) schedule hclient
    obtain ⟨calls, pending, hmakes⟩ := client.exists_makes hreaches
    have hown : ∀ access ∈ accessesOf thread
        ((Machine.mk .fresh threads).trace settings allocate schedule),
        access.AgreesWith (adoptedObjects
          (((Machine.mk .fresh threads).trace settings allocate schedule).map
            Prod.snd)) := by
      intro access hmem
      exact hagrees access (List.mem_map_of_mem (mem_accessesOf.mp hmem))
    obtain ⟨hcalls, hpending⟩ := hmakes.isolated hown hnodup
    exact ⟨calls, pending, hmakes, hcalls, hpending⟩
  · exact hrecords.lookup
  · intro post hthreads
    obtain ⟨⟨own, hend⟩, hsucceeds⟩ := (separated_start hthreads).follow
      schedule (Session.records_fresh allocate) hdistinct
    refine ⟨hsucceeds, fun thread result hdone =>
      ⟨_, hend.post_of_done hdone⟩, ?_⟩
    intro hdone hpost
    exact hend.contents_eq_empty hdone hpost

/-- A thread that makes a column and a table of it. -/
def sampleMaker : Client Unit :=
  .make (.columnFromDoubles ⟨some [.one, .nan], 2⟩ ⟨some [120, 0]⟩) fun _ =>
    .make (.tableFromColumns ⟨some [⟨16⟩], 1⟩) fun _ => .finish ()

/-- A thread that gives that column up. -/
def sampleRemover : Client Unit :=
  .make (.releaseObject ⟨16⟩) fun _ => .finish ()

/-- The column is given up after the table is resolved and before it is
registered. -/
theorem orderly_sampleMaker_sampleRemover :
    HandleMap.sampleAllocator.DistinctBelow
        ((Machine.mk .fresh [sampleMaker.program, sampleRemover.program]).follow
          ⟨false, 4096⟩ HandleMap.sampleAllocator
          [0, 0, 1, 0]).session.registry.issued ∧
      Orderly ⟨false, 4096⟩ HandleMap.sampleAllocator
        [sampleMaker.program, sampleRemover.program] ((Machine.mk .fresh
        [sampleMaker.program, sampleRemover.program]).trace ⟨false, 4096⟩
          HandleMap.sampleAllocator [0, 0, 1, 0])
        ((Machine.mk .fresh [sampleMaker.program, sampleRemover.program]).follow
          ⟨false, 4096⟩ HandleMap.sampleAllocator [0, 0, 1, 0]) :=
  have hdistinct : HandleMap.sampleAllocator.DistinctBelow
      ((Machine.mk .fresh [sampleMaker.program, sampleRemover.program]).follow
        ⟨false, 4096⟩ HandleMap.sampleAllocator
        [0, 0, 1, 0]).session.registry.issued := by
    decide +kernel
  ⟨hdistinct, orderly _ _ _ _ hdistinct⟩

example : ((Machine.mk .fresh [sampleMaker.program,
      sampleRemover.program]).follow ⟨false, 4096⟩
    HandleMap.sampleAllocator [0, 0, 1, 0]).session.registry.entries.map
      Prod.fst = [⟨32⟩] := by
  decide +kernel

end Machine
end ColumnBridge
