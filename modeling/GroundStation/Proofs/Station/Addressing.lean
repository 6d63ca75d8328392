/-
# Where a request goes

A request names a provider and a parameter, or a qualified id alone.  Either way it is looked up under one
name, the qualified id, and what goes to the instruments bears the provider and the parameter of the entry
that is found.  An underscore joins the two parts and may occur in both, so a qualified id can be taken
apart in several ways.  Which of them counts is settled by the catalog, which has at most one entry for a
name and an accessor: the request goes to that entry, whether or not it was named in the same two parts
(`dispatch_forwards`).

So a request arrives as it was given exactly if the entry is one of the provider that it names.  It is if
that provider has a parameter of the name given, and wherever the two parts have no underscore of their
own.  Otherwise it may go elsewhere (`dispatch_forwards_elsewhere`).
-/
import GroundStation.Proofs.Station.Reach

namespace GroundStation

/-- Of two parts without underscores no other two parts have the qualified id. -/
theorem qualify_inj {p q id other : Text} (provider : '_' ∉ p) (parameter : '_' ∉ id)
    (h : qualify q other = qualify p id) : q = p ∧ other = id := by
  have parts := (List.append_cons_inj_of_notMem provider parameter).mp h.symm
  exact ⟨parts.1.symm, parts.2.2.symm⟩

/-- The entry that a request names: it has the qualified id and the accessor. -/
def CatalogEntry.IsNamedBy (e : CatalogEntry) (r : Request) : Prop :=
  e.qualifiedId = r.qualifiedId ∧ Station.accessor? r.kind = some e.accessor

instance (e : CatalogEntry) (r : Request) : Decidable (e.IsNamedBy r) := by
  unfold CatalogEntry.IsNamedBy
  infer_instance

namespace Catalog

variable {c : Catalog} {r : Request}

/-- For a `get` or a `set`, the entry found is the one that the request names. -/
theorem entry?_eq_some_iff (unique : c.keys.Nodup) (asks : r.kind = .get ∨ r.kind = .set)
    {e : CatalogEntry} : c.entry? r = some e ↔ e ∈ c.entries ∧ e.IsNamedBy r := by
  have found : ∀ accessor, c.get? r.qualifiedId accessor = some e ↔
      e ∈ c.entries ∧ e.qualifiedId = r.qualifiedId ∧ some accessor = some e.accessor := by
    intro accessor
    rw [get?_eq_some_iff unique, CatalogEntry.key, Prod.mk.injEq, Option.some_inj, eq_comm (a := accessor)]
  unfold entry? CatalogEntry.IsNamedBy
  rcases asks with kind | kind <;> rw [kind] <;> exact found _

end Catalog

namespace Station

variable {δ : Type}

/-! ## What is heard of requests for instruments -/

/-- The request that an observer of `io_service_request` has heard. -/
def request? : Topic × Message → Option Request
  | (.ioRequest, .request r) => some r
  | _ => none

/-- The requests that have been passed on to the instruments, earliest first. -/
def forwarded (s : Station δ) : List Request := s.heard.reverse.filterMap request?

theorem forwarded_note (topic : Topic) (m : Message) (s : Station δ) :
    forwarded { s with heard := (topic, m) :: s.heard } =
      s.forwarded ++ (request? (topic, m)).toList := by
  rw [forwarded, forwarded, List.reverse_cons, List.filterMap_append]
  cases h : request? (topic, m) <;> simp [h]

/-- Where nothing is heard of that topic, nothing is passed on. -/
theorem forwarded_changes {s t : Station δ} (h : Changes (· ≠ .ioRequest) s t) :
    t.forwarded = s.forwarded := by
  refine h.keeps (I := fun u => u.forwarded = s.forwarded) ?_ rfl
  intro u v change hu
  cases change with
  | @heard topic m _ ne =>
    rw [forwarded_note, hu]
    cases topic with
    | ioRequest => exact absurd rfl ne
    | _ => exact List.append_nil _
  | dropped index =>
    unfold dropClient
    split <;> exact hu
  | _ => exact hu

theorem hearIoRequest_observer (m : Message) (s : Station δ) :
    hearIoRequest m .observer s = (.ok (), { s with heard := (.ioRequest, m) :: s.heard }) := rfl

/-- Observers among the listeners hear what is told them, each at most once, and nothing else is heard. -/
theorem forwarded_deliver (r : Request) (subs : List (Subscriber Listener)) (s : Station δ) :
    ∃ times ≤ (subs.map Subscriber.listener).count .observer,
      (deliver (fun id s => s.bus.holds ⟨.ioRequest, id⟩) (hearIoRequest (.request r)) subs s).2.forwarded =
        s.forwarded ++ List.replicate times r := by
  induction subs generalizing s with
  | nil => exact ⟨0, Nat.le_refl 0, (List.append_nil _).symm⟩
  | cons sub rest ih =>
    rw [List.map_cons, List.count_cons]
    by_cases hs : s.bus.holds ⟨.ioRequest, sub.id⟩ = true
    · by_cases hsub : sub.listener = .observer
      · have hcall := hearIoRequest_observer (.request r) s
        rw [← hsub] at hcall
        obtain ⟨times, le, heq⟩ := ih { s with heard := (.ioRequest, .request r) :: s.heard }
        refine ⟨times + 1, by simpa [hsub] using le, ?_⟩
        rw [deliver_cons_of_ok hs hcall, heq, forwarded_note, List.replicate_succ, List.append_assoc]
        rfl
      · have same : (hearIoRequest (.request r) sub.listener s).2.forwarded = s.forwarded :=
          forwarded_changes <| changes_hearIoRequest (by decide) (by decide) (by decide)
            (fun heq => absurd heq hsub) _ s
        rcases hcall : hearIoRequest (.request r) sub.listener s with ⟨e | _, t⟩ <;> rw [hcall] at same
        · refine ⟨0, Nat.zero_le _, ?_⟩
          rw [deliver_cons_of_error hs hcall]
          exact same.trans (List.append_nil _).symm
        · obtain ⟨times, le, heq⟩ := ih t
          refine ⟨times, Nat.le_add_right_of_le le, ?_⟩
          rw [deliver_cons_of_ok hs hcall, heq]
          exact congrArg (· ++ _) same
    · obtain ⟨times, le, heq⟩ := ih s
      refine ⟨times, Nat.le_add_right_of_le le, ?_⟩
      rw [deliver_cons_of_not_stands hs]
      exact heq

/-- An observer that listens first hears what is passed on. -/
theorem forwarded_publishIoRequest (r : Request) (s : Station δ) :
    ∃ times ≤ (s.listeners .ioRequest).count .observer,
      ((s.listeners .ioRequest).head? = some .observer → 0 < times) ∧
      (publishIoRequest (.request r) s).2.forwarded = s.forwarded ++ List.replicate times r := by
  obtain ⟨times, le, heq⟩ := forwarded_deliver r (s.bus.channel .ioRequest).subscribers s
  refine ⟨times, le, fun first => ?_, heq⟩
  obtain ⟨behind, hfirst⟩ := List.head?_eq_some_iff.mp first
  obtain ⟨sub, rest, hsubs, hsub, -⟩ := List.map_eq_cons_iff.mp hfirst
  have stands : s.bus.holds ⟨.ioRequest, sub.id⟩ = true := by
    refine Bus.holds_of_mem ?_
    rw [hsubs]
    exact List.mem_cons_self
  have hcall := hearIoRequest_observer (.request r) s
  rw [← hsub] at hcall
  obtain ⟨more, -, hmore⟩ := forwarded_deliver r rest { s with heard := (.ioRequest, .request r) :: s.heard }
  rw [hsubs, deliver_cons_of_ok stands hcall, hmore, forwarded_note, List.append_assoc] at heq
  refine Nat.pos_of_ne_zero ?_
  rintro rfl
  have none : r :: List.replicate more r = [] := List.append_cancel_left heq
  cases none

/-- What is heard, when one request arrives, of requests for instruments is another one: each observer hears
it at most once, and one that listens first does hear it. -/
def PassedOn (r f : Request) (s : Station δ) : Prop :=
  ∃ times ≤ (s.listeners .ioRequest).count .observer,
    ((s.listeners .ioRequest).head? = some .observer → 0 < times) ∧
    (dispatch r s).2.forwarded = s.forwarded ++ List.replicate times f

/-- A request for an entry is passed on as one to the provider of the entry. -/
theorem passedOn_entry {s : Station δ} (slotting : s.Slotting) {r : Request} {e : CatalogEntry}
    (found : s.catalog.entry? r = some e) : PassedOn r ⟨some e.provider, e.id, r.kind, r.args⟩ s := by
  have same : s.await.listeners .ioRequest = s.listeners .ioRequest :=
    listeners_await slotting (by decide)
  rw [PassedOn, ← same, dispatch_eq, found]
  dsimp only
  rw [ignoreCount_snd]
  exact forwarded_publishIoRequest _ s.await

/-- A request for no entry is not passed on. -/
theorem forwarded_dispatch_of_none {s : Station δ} {r : Request} (absent : s.catalog.entry? r = none) :
    (dispatch r s).2.forwarded = s.forwarded := by
  rw [dispatch_eq, absent]
  exact forwarded_changes (changes_reply (by decide) (by decide) _ s)

/-! ## The request that arrives -/

/-- Of every station that can be reached, and every `get` or `set`: the catalog has at most one entry that
the request names.  If it has one, the request is passed on to its provider, with its parameter and with
the same kind and arguments, whoever listens; if it has none, nothing is passed on.  What arrives of a request that names a
provider is the request itself exactly if the entry is one of that provider, as it is if both names are
without underscores, and if the provider has a parameter of that name. -/
theorem dispatch_forwards {registry : Registry δ} {devices : δ} {now : Binary64}
    {early : List (Topic × Option Text)} {acts : List Act} {s : Station δ}
    (reached : run acts (opened registry devices now early) = s) {r : Request}
    (asks : r.kind = .get ∨ r.kind = .set) :
    (∀ e ∈ s.catalog.entries, e.IsNamedBy r →
      (∀ other ∈ s.catalog.entries, other.IsNamedBy r → other = e) ∧
      PassedOn r ⟨some e.provider, e.id, r.kind, r.args⟩ s ∧
      ∀ p, r.provider = some p →
        ((⟨some e.provider, e.id, r.kind, r.args⟩ : Request) = r ↔ e.provider = p) ∧
        ('_' ∉ p → '_' ∉ r.id → e.provider = p)) ∧
    ((∀ e ∈ s.catalog.entries, ¬e.IsNamedBy r) → (dispatch r s).2.forwarded = s.forwarded) ∧
    ∀ p, r.provider = some p →
      (∃ e ∈ s.catalog.entries, e.provider = p ∧ e.id = r.id ∧ accessor? r.kind = some e.accessor) →
      PassedOn r r s := by
  have unique : s.catalog.keys.Nodup := reached ▸ nodup_keys_run acts
  have slotting : s.Slotting := reached ▸ slotting_run acts
  have found := @Catalog.entry?_eq_some_iff s.catalog r unique asks
  have passed : ∀ e ∈ s.catalog.entries, e.IsNamedBy r →
      PassedOn r ⟨some e.provider, e.id, r.kind, r.args⟩ s :=
    fun e he hnamed => passedOn_entry slotting (found.mpr ⟨he, hnamed⟩)
  refine ⟨fun e he hnamed => ⟨?_, passed e he hnamed, fun p hp => ?_⟩, fun none => ?_, ?_⟩
  · intro other hother hother'
    have heq := (found.mpr ⟨hother, hother'⟩).symm.trans (found.mpr ⟨he, hnamed⟩)
    exact Option.some.inj heq
  · have hid : qualify e.provider e.id = qualify p r.id := by
      have hqualified := hnamed.1
      rwa [Request.qualifiedId, hp] at hqualified
    refine ⟨⟨fun heq => ?_, ?_⟩, fun hprovider hparameter => (qualify_inj hprovider hparameter hid).1⟩
    · exact Option.some.inj ((congrArg Request.provider heq).trans hp)
    · rintro rfl
      have parameter : e.id = r.id := (List.cons.inj (List.append_cancel_left hid)).2
      rw [← hp, parameter]
  · refine forwarded_dispatch_of_none (Option.eq_none_iff_forall_ne_some.mpr fun e heq => ?_)
    exact none e (found.mp heq).1 (found.mp heq).2
  · rintro p hp ⟨e, he, rfl, hid, haccessor⟩
    have hnamed : e.IsNamedBy r := by
      refine ⟨?_, haccessor⟩
      rw [Request.qualifiedId, hp, CatalogEntry.qualifiedId, hid]
      rfl
    have given := passed e he hnamed
    rwa [← hp, hid] at given

/-- A station that knows how to read the voltage of a pump of the cooling, and whose requests for
instruments somebody hears. -/
def cooling : Station Unit :=
  run [.register [⟨"cooling", "pump_volt", .get, Signature.empty.toJson, "pump"⟩]]
    (opened .empty () .nan [(.ioRequest, none)])

theorem dispatch_forwards_cooling :
    ∃ s, run [.register [⟨"cooling", "pump_volt", .get, Signature.empty.toJson, "pump"⟩]]
        (opened .empty () .nan [(.ioRequest, none)] : Station Unit) = s ∧
      (dispatch ⟨some "cooling", "pump_volt", .get, ["1"]⟩ s).2.forwarded =
        s.forwarded ++ [⟨some "cooling", "pump_volt", .get, ["1"]⟩] ∧
      (dispatch ⟨none, "cooling_pump_volt", .get, []⟩ s).2.forwarded =
        s.forwarded ++ [⟨some "cooling", "pump_volt", .get, []⟩] := by
  have asks : RequestKind.get = .get ∨ RequestKind.get = .set := .inl rfl
  have heard : ∀ {r f : Request}, PassedOn r f cooling →
      (dispatch r cooling).2.forwarded = cooling.forwarded ++ [f] := by
    rintro r f ⟨times, le, first, heq⟩
    have once : times = 1 := Nat.le_antisymm le (first rfl)
    rwa [once] at heq
  obtain ⟨-, -, named⟩ := dispatch_forwards (s := cooling) rfl
    (r := ⟨some "cooling", "pump_volt", .get, ["1"]⟩) asks
  obtain ⟨qualified, -, -⟩ := dispatch_forwards (s := cooling) rfl
    (r := ⟨none, "cooling_pump_volt", .get, []⟩) asks
  refine ⟨cooling, rfl, heard ?_, heard ?_⟩
  · exact named "cooling" rfl ⟨_, List.mem_singleton.mpr rfl, rfl, rfl, rfl⟩
  · exact (qualified _ (List.mem_singleton.mpr rfl) ⟨rfl, rfl⟩).2.1

/-- A request that names the voltage of a cooling pump goes to the pump voltage of the cooling. -/
theorem dispatch_forwards_elsewhere :
    ∃ (r : Request) (p : Text) (f : Request), cooling.listeners .ioRequest = [.observer] ∧
      r.kind = .get ∧ r.provider = some p ∧
      (dispatch r cooling).2.forwarded = cooling.forwarded ++ [f] ∧
      ¬(f.provider = some p ∧ f.id = r.id) := by
  refine ⟨⟨some "cooling_pump", "volt", .get, []⟩, "cooling_pump",
    ⟨some "cooling", "pump_volt", .get, []⟩, rfl, rfl, rfl, ?_, by decide⟩
  decide

end Station

end GroundStation
