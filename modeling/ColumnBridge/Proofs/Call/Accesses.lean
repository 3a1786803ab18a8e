import ColumnBridge.Proofs.Call.Resolution
import ColumnBridge.Proofs.Handle.Interleaving

/-!
# Calls access by access

A call that others interrupt does not see the live objects of any one moment:
between two of its look-ups handles may come and go.  But the object behind a
handle never changes, so the answers of the look-ups fit into one map all the
same.  In every map that agrees with them the call computes the effect that it
has, and its accesses are those of that effect: `Call.enacts_program`.

Which map it is matters only behind the handles that the call resolves, by
`Call.effect_congr`.
-/

namespace ColumnBridge

/-! ## Maps that agree with answers -/

/-- An access that succeeded found in a map what its handle refers to. -/
def Access.AgreesWith (m : LiveObjects) : Access → Prop
  | adopt _ _ => True
  | fetch kind handle answer =>
    ∀ value, answer = .ok value → m.lookup handle = some ⟨kind, value⟩
  | release handle answer => answer = .ok () → handle ∈ m

/-- The accesses hand out nothing and give up nothing. -/
def Quiet (accesses : List Access) : Prop :=
  adoptions accesses = [] ∧ releases accesses = []

theorem quiet_nil : Quiet [] := ⟨rfl, rfl⟩

theorem Quiet.append {before after : List Access} (hbefore : Quiet before)
    (hafter : Quiet after) : Quiet (before ++ after) := by
  rw [Quiet, adoptions_append, releases_append, hbefore.1, hbefore.2]
  exact hafter

/-- The accesses hand out and give up what an effect does, and the effect
answers a value. -/
def Effect.Accounts {α : Type} (accesses : List Access) (value : α) :
    Effect α → Prop
  | .create object answer => ∃ handle, adoptions accesses = [(handle, object)] ∧
      releases accesses = [] ∧ value = answer handle
  | .remove handle answer =>
      adoptions accesses = [] ∧ releases accesses = [handle] ∧ value = answer
  | .read answer => Quiet accesses ∧ value = answer

theorem Effect.Accounts.quiet_append {α : Type} {before accesses : List Access}
    {value : α} {effect : Effect α} (hbefore : Quiet before)
    (h : effect.Accounts accesses value) :
    effect.Accounts (before ++ accesses) value := by
  have hadoptions : adoptions (before ++ accesses) = adoptions accesses := by
    rw [adoptions_append, hbefore.1, List.nil_append]
  have hreleases : releases (before ++ accesses) = releases accesses := by
    rw [releases_append, hbefore.2, List.nil_append]
  rcases effect with _ | _ | _
  · rwa [Effect.Accounts, hadoptions, hreleases]
  · rwa [Effect.Accounts, hadoptions, hreleases]
  · rwa [Effect.Accounts, Quiet, hadoptions, hreleases]

/-! ## Actions that look up and actions that end in an effect -/

namespace Action

variable {α β : Type}

/-- An action that only looks up: whatever it is answered, it changes nothing,
and its result is computed from any map that agrees with the answers. -/
structure Resolves (x : Action α) (compute : LiveObjects → Except Error α) :
    Prop where
  quiet : ∀ accesses p, x.run.Reaches accesses p → Quiet accesses
  computes : ∀ accesses a, x.run.Reaches accesses (.done (.ok a)) →
    ∀ m, (∀ access ∈ accesses, access.AgreesWith m) → compute m = .ok a

/-- An action that ends in an effect: its success is that of the effect computed
from any map that agrees with the answers, and before it succeeds it changes
nothing. -/
structure Enacts (x : Action α)
    (compute : LiveObjects → Except Error (Effect α)) : Prop where
  accounts : ∀ accesses value, x.run.Reaches accesses (.done (.ok value)) →
    ∀ m, (∀ access ∈ accesses, access.AgreesWith m) →
      ∃ effect, compute m = .ok effect ∧ effect.Accounts accesses value
  quiet : ∀ accesses p, x.run.Reaches accesses p →
    (∀ value, p ≠ .done (.ok value)) →
    Quiet accesses

/-- A way through an action and its continuation passes through a result of the
action, or does not arrive at a result at all. -/
theorem reaches_bind {x : Action α} {f : α → Action β} {accesses : List Access}
    {p : Program (Except Error β)} (h : (x >>= f).run.Reaches accesses p) :
    (∃ q, x.run.Reaches accesses q ∧ ∀ value, p ≠ .done (.ok value)) ∨
      ∃ before after a, accesses = before ++ after ∧
        x.run.Reaches before (.done (.ok a)) ∧
        (f a).run.Reaches after p := by
  rw [ExceptT.run_bind] at h
  -- An error of `x` is a result of its program, but the continuation performs
  -- no access then.
  rcases Program.Reaches.of_bind h with
    ⟨q, hq, hresult, rfl⟩ | ⟨before, after, error | a, rfl, hx, hf⟩
  · refine .inl ⟨q, hq, ?_⟩
    intro value hvalue
    rcases q with _ | _ | _ | _
    · cases hresult
    · cases hvalue
    · cases hvalue
    · cases hvalue
  · obtain ⟨rfl, rfl⟩ := Program.reaches_done_iff.mp hf
    rw [List.append_nil]
    exact .inl ⟨_, hx, nofun⟩
  · exact .inr ⟨before, after, a, rfl, hx, hf⟩

theorem resolves_fetch (kind : Kind) (handle : Address) :
    (Action.fetch kind handle).Resolves fun m => m.value kind handle where
  quiet accesses p h := by
    rcases h with _ | _ | h
    · exact quiet_nil
    · obtain ⟨rfl, -⟩ := Program.reaches_done_iff.mp h
      exact quiet_nil
  computes accesses value h m hm := by
    rcases h with _ | _ | h
    obtain ⟨rfl, hanswer⟩ := Program.reaches_done_iff.mp h
    cases hanswer
    have hlookup := hm _ List.mem_cons_self value rfl
    rw [LiveObjects.value, hlookup]
    simp

theorem resolves_ofExcept (outcome : Except Error α) :
    (Action.ofExcept outcome).Resolves fun _ => outcome where
  quiet accesses p h := by
    obtain ⟨rfl, -⟩ := Program.reaches_done_iff.mp h
    exact quiet_nil
  computes accesses a h m _ := by
    obtain ⟨-, hdone⟩ := Program.reaches_done_iff.mp h
    cases hdone
    rfl

theorem Resolves.bind {x : Action α} {f : α → Action β}
    {compute : LiveObjects → Except Error α}
    {next : α → LiveObjects → Except Error β} (hx : x.Resolves compute)
    (hf : ∀ a, (f a).Resolves (next a)) :
    (x >>= f).Resolves fun m => compute m >>= fun a => next a m where
  quiet accesses p h := by
    rcases reaches_bind h with ⟨q, hq, -⟩ |
      ⟨before, after, a, rfl, hbefore, hafter⟩
    · exact hx.quiet accesses q hq
    · exact (hx.quiet before _ hbefore).append ((hf a).quiet after p hafter)
  computes accesses b h m hm := by
    rcases reaches_bind h with ⟨q, -, hno⟩ |
      ⟨before, after, a, rfl, hbefore, hafter⟩
    · exact absurd rfl (hno b)
    · have hfirst := hx.computes before a hbefore m
        fun access hmem => hm access (List.mem_append_left _ hmem)
      have hsecond := (hf a).computes after b hafter m
        fun access hmem => hm access (List.mem_append_right _ hmem)
      rw [hfirst]
      exact hsecond

theorem Resolves.bind_enacts {x : Action α} {f : α → Action β}
    {compute : LiveObjects → Except Error α}
    {next : α → LiveObjects → Except Error (Effect β)} (hx : x.Resolves compute)
    (hf : ∀ a, (f a).Enacts (next a)) :
    (x >>= f).Enacts fun m => compute m >>= fun a => next a m where
  accounts accesses value h m hm := by
    rcases reaches_bind h with ⟨q, -, hno⟩ |
      ⟨before, after, a, rfl, hbefore, hafter⟩
    · exact absurd rfl (hno value)
    · have hfirst := hx.computes before a hbefore m
        fun access hmem => hm access (List.mem_append_left _ hmem)
      obtain ⟨effect, heffect, haccounts⟩ :=
        (hf a).accounts after value hafter m fun access hmem =>
          hm access (List.mem_append_right _ hmem)
      rw [hfirst]
      exact ⟨effect, heffect,
        haccounts.quiet_append (hx.quiet before _ hbefore)⟩
  quiet accesses p h hno := by
    rcases reaches_bind h with ⟨q, hq, -⟩ |
      ⟨before, after, a, rfl, hbefore, hafter⟩
    · exact hx.quiet accesses q hq
    · exact (hx.quiet before _ hbefore).append ((hf a).quiet after p hafter hno)

theorem enacts_ofExcept (outcome : Except Error α) :
    (Action.ofExcept outcome).Enacts fun _ => outcome >>= fun a =>
      pure (.read a) where
  accounts accesses value h m _ := by
    obtain ⟨rfl, hdone⟩ := Program.reaches_done_iff.mp h
    cases hdone
    exact ⟨_, rfl, quiet_nil, rfl⟩
  quiet accesses p h _ := by
    obtain ⟨rfl, -⟩ := Program.reaches_done_iff.mp h
    exact quiet_nil

theorem enacts_adopt (kind : Kind) (value : kind.Carrier) :
    (Action.adopt kind value).Enacts fun _ =>
      pure (.create ⟨kind, value⟩ id) where
  accounts accesses found h m _ := by
    rcases h with _ | h
    obtain ⟨rfl, hdone⟩ := Program.reaches_done_iff.mp h
    cases hdone
    exact ⟨_, rfl, _, rfl, rfl, rfl⟩
  quiet accesses p h hno := by
    rcases h with _ | h
    · exact quiet_nil
    · obtain ⟨-, rfl⟩ := Program.reaches_done_iff.mp h
      exact absurd rfl (hno _)

theorem enacts_release (handle : Address) :
    (Action.release handle).Enacts fun m =>
      if handle ∈ m then
        .ok (.remove handle ())
      else .error (.unknownHandle handle) where
  accounts accesses value h m hm := by
    rcases h with _ | _ | _ | h
    obtain ⟨rfl, hdone⟩ := Program.reaches_done_iff.mp h
    cases hdone
    have hmem : handle ∈ m := hm _ List.mem_cons_self rfl
    exact ⟨_, if_pos hmem, rfl, rfl, rfl⟩
  quiet accesses p h hno := by
    rcases h with _ | _ | _ | @⟨_, _, error | _, _, _, h⟩
    · exact quiet_nil
    · obtain ⟨rfl, -⟩ := Program.reaches_done_iff.mp h
      exact quiet_nil
    · obtain ⟨-, rfl⟩ := Program.reaches_done_iff.mp h
      exact absurd rfl (hno _)

end Action

/-! ## Calls -/

namespace Call

theorem resolves_fetchColumns (handles : List Address) :
    (fetchColumns handles).Resolves fun m =>
      handles.mapM (m.value .column) := by
  induction handles with
  | nil => exact Action.resolves_ofExcept (.ok [])
  | cons handle rest ih =>
      have hcompute :
          (fun m : LiveObjects => (handle :: rest).mapM (m.value .column)) =
          fun m => m.value .column handle >>= fun column =>
            rest.mapM (m.value .column) >>= fun columns =>
              .ok (column :: columns) := by
        funext m
        exact List.mapM_cons
      rw [hcompute]
      refine (Action.resolves_fetch .column handle).bind fun column => ?_
      exact ih.bind fun columns =>
        Action.resolves_ofExcept (.ok (column :: columns))

/-- A call has the effect that it computes in any map that agrees with the
answers of its accesses. -/
theorem enacts_program (call : Call) :
    call.program.Enacts fun m => call.effect m := by
  cases call with
  | oneHotEncode column =>
      refine (Action.resolves_fetch .column column).bind_enacts fun column => ?_
      refine (Action.resolves_ofExcept (OneHot.encode column)).bind_enacts
        fun table => ?_
      exact Action.enacts_adopt .table table
  | releaseObject handle => exact Action.enacts_release handle
  | columnFromDoubles data name =>
      refine (Action.resolves_ofExcept data.read).bind_enacts fun values => ?_
      refine (Action.resolves_ofExcept name.readName).bind_enacts fun name => ?_
      exact Action.enacts_adopt .column (.ofDoubles name values)
  | columnFromStrings data name =>
      refine (Action.resolves_ofExcept data.read).bind_enacts fun arguments =>
        ?_
      refine (Action.resolves_ofExcept name.readName).bind_enacts fun name => ?_
      refine (Action.resolves_ofExcept
        (TextArgument.readAll arguments)).bind_enacts fun texts => ?_
      exact Action.enacts_adopt .column (.ofSlots name .string texts)
  | tableFromColumns columns =>
      refine (Action.resolves_ofExcept columns.read).bind_enacts fun handles =>
        ?_
      refine (resolves_fetchColumns handles).bind_enacts fun columns => ?_
      refine (Action.resolves_ofExcept (tableOf columns)).bind_enacts
        fun table => ?_
      exact Action.enacts_adopt .table table
  | tableNumRows table =>
      refine (Action.resolves_fetch .table table).bind_enacts fun table => ?_
      exact Action.enacts_ofExcept (.ok table.height)
  | tableNumColumns table =>
      refine (Action.resolves_fetch .table table).bind_enacts fun table => ?_
      exact Action.enacts_ofExcept (.ok table.width)
  | tableColumnAt table index =>
      refine (Action.resolves_fetch .table table).bind_enacts fun table => ?_
      refine (Action.resolves_ofExcept (columnAt table index)).bind_enacts
        fun column => ?_
      exact Action.enacts_adopt .column column
  | columnLength column =>
      refine (Action.resolves_fetch .column column).bind_enacts fun column => ?_
      exact Action.enacts_ofExcept (.ok column.length)
  | columnDoubleAt column index =>
      refine (Action.resolves_fetch .column column).bind_enacts fun column => ?_
      exact Action.enacts_ofExcept (column.doubleAt index)

/-! ## The handles that matter -/

theorem value_congr {m other : LiveObjects} {kind : Kind} {handle : Address}
    (h : m.lookup handle = other.lookup handle) :
    m.value kind handle = other.value kind handle := by
  rw [LiveObjects.value, LiveObjects.value, h]

theorem mapM_value_congr {m other : LiveObjects} {kind : Kind}
    {handles : List Address}
    (h : ∀ handle ∈ handles, m.lookup handle = other.lookup handle) :
    handles.mapM (m.value kind) = handles.mapM (other.value kind) := by
  induction handles with
  | nil => rfl
  | cons handle rest ih =>
      rw [List.mapM_cons, List.mapM_cons,
        value_congr (h handle List.mem_cons_self),
        ih fun later hmem => h later (List.mem_cons_of_mem _ hmem)]

/-- Two maps with the same objects behind the handles of a call have the same
effect of it. -/
theorem effect_congr {call : Call} {m other : LiveObjects}
    (h : ∀ handle ∈ call.handles, m.lookup handle = other.lookup handle) :
    call.effect m = call.effect other := by
  cases call with
  | oneHotEncode column =>
      rw [effect, effect, value_congr (h column List.mem_cons_self)]
  | releaseObject handle =>
      have hmem : handle ∈ m ↔ handle ∈ other := by
        rw [Finmap.mem_iff, Finmap.mem_iff, h handle List.mem_cons_self]
      rw [effect, effect]
      exact if_congr hmem rfl rfl
  | columnFromDoubles data name => rfl
  | columnFromStrings data name => rfl
  | tableFromColumns columns =>
      rw [effect, effect]
      rcases hread : columns.read with error | handles
      · rfl
      · have hhandles : (tableFromColumns columns).handles = handles := by
          rw [Call.handles, hread]
        rw [hhandles] at h
        have hcolumns : handles.mapM (m.value .column) =
            handles.mapM (other.value .column) :=
          mapM_value_congr h
        change (handles.mapM (m.value .column) >>= _) = _
        rw [hcolumns]
        rfl
  | tableNumRows table =>
      rw [effect, effect, value_congr (h table List.mem_cons_self)]
  | tableNumColumns table =>
      rw [effect, effect, value_congr (h table List.mem_cons_self)]
  | tableColumnAt table index =>
      rw [effect, effect, value_congr (h table List.mem_cons_self)]
  | columnLength column =>
      rw [effect, effect, value_congr (h column List.mem_cons_self)]
  | columnDoubleAt column index =>
      rw [effect, effect, value_congr (h column List.mem_cons_self)]

open Classical in
/-- The first handle that a call does not accept, if there is any. -/
theorem exists_stopsAt {call : Call} {m : LiveObjects} {handle : Address}
    (hmem : handle ∈ call.handles) (hno : ¬ call.Accepts m handle) :
    ∃ first, call.StopsAt m first := by
  have hfound :
      (call.handles.find? fun handle => ¬ call.Accepts m handle).isSome := by
    rw [List.find?_isSome]
    exact ⟨handle, hmem, by simpa using hno⟩
  obtain ⟨first, hfirst⟩ := Option.isSome_iff_exists.mp hfound
  obtain ⟨hbad, before, after, heq, hbefore⟩ :=
    List.find?_eq_some_iff_append.mp hfirst
  refine ⟨first, before, after, heq, ?_, by simpa using hbad⟩
  intro earlier hearlier
  simpa using hbefore earlier hearlier

/-- A call that has an effect finds an object behind each of its handles. -/
theorem mem_of_effect_eq_ok {call : Call} {m : LiveObjects}
    {e : Effect call.Result} (h : call.effect m = .ok e) {handle : Address}
    (hmem : handle ∈ call.handles) : handle ∈ m := by
  by_contra hdead
  have hno : ¬ call.Accepts m handle := by
    rintro ⟨object, hlookup, -⟩
    exact hdead (Finmap.mem_of_lookup_eq_some hlookup)
  obtain ⟨first, hstop⟩ := exists_stopsAt hmem hno
  have hreports := call.reportsHandles_effect m
  by_cases hfirst : first ∈ m
  · obtain ⟨kind, -, herror⟩ := hreports.wrongKind first hfirst hstop
    cases h.symm.trans herror
  · cases h.symm.trans ((hreports.unknown first).mpr ⟨hstop, hfirst⟩)

end Call
end ColumnBridge
