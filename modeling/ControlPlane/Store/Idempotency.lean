import ControlPlane.Store.Provenance

/-!
# Idempotency keys

`AppendEventExactlyOnce` first inserts the idempotency key on the condition that
it is new, and only the call whose insert applied goes on to insert an event. As
long as no key is cleaned up, the key row therefore names the only event that can
be inserted for its key.
-/

namespace ControlPlane

open Transition

/-- The step starts a run of `CleanupExpired`. -/
def Label.startsCleanup : Label → Bool
  | .start _ (.cleanup _) => true
  | _ => false

/-- The side condition of runs without `CleanupExpired`. -/
def withoutCleanup (_ : System) (l : Label) : Prop := l.startsCleanup = false

/-- The event is filed under this stream and idempotency key. -/
def EventRecord.filedUnder (stream key : String) (ev : EventRecord) : Bool :=
  decide (ev.stream = streamOrDefault stream ∧ ev.idempotencyKey = key)

/-- The key row of the event names this identifier. -/
def Store.KeyNames (db : Store) (ev : EventRecord) (id : UUID) : Prop :=
  ∃ row, db.idempotencyKeys (ev.stream, ev.idempotencyKey) = some row ∧ row.eventId = id

/-- The identifier that an append works with is the one its key row names. -/
def Call.Keyed (db : Store) : Call → Prop
  | .appendLookup ev existingID => db.KeyNames ev existingID
  | .appendPublished ev existing => db.KeyNames ev existing.id
  | .appendIndex ev newID => db.KeyNames ev newID
  | .appendBatch ev newID => ev.idempotencyKey ≠ "" → db.KeyNames ev newID
  | _ => True

/-- Without cleanup, every identifier inserted or returned for a key is the one
that the key row names, and an inserted event is reported as new at most once. -/
structure System.Keyed (s : System) : Prop where
  idle : ∀ p c, s.callOf p = some c → c.cleaning = false
  calls : ∀ p c, s.callOf p = some c → c.Keyed s.db
  inserted : ∀ ev id, (ev, id) ∈ s.inserted → ev.idempotencyKey ≠ "" → s.db.KeyNames ev id
  returned : ∀ ev res, (ev, res) ∈ s.returns → ev.idempotencyKey ≠ "" →
    s.db.KeyNames ev res.event.id
  new : ∀ ev res, (ev, res) ∈ s.returns → res.duplicate = false →
    res.event.id ∈ s.inserted.map Prod.snd
  once : ((s.returns.filter fun r => !r.2.duplicate).map fun r => r.2.event.id).Nodup

section Keys

variable {db db' : Store} {c d : Call} {env : Env} {ev : EventRecord} {id : UUID}

/-- Without cleanup, a key row is never changed. -/
theorem Call.Mutation.idempotencyKeys {k : String × String} {row : KeyRow}
    (hm : Call.Mutation env db c db') (hc : c.cleaning = false)
    (hrow : db.idempotencyKeys k = some row) : db'.idempotencyKeys k = some row := by
  cases hm with
  | insertKey hnone =>
    have hne : k ≠ _ := fun heq => by rw [heq, hnone] at hrow; cases hrow
    simpa [Store.insertKey, Function.update_of_ne hne] using hrow
  | deleteKey => cases hc
  | _ => exact hrow

/-- What a key names stays named. -/
theorem Store.KeyNames.mutate (h : db.KeyNames ev id) (hm : Call.Mutation env db c db')
    (hc : c.cleaning = false) : db'.KeyNames ev id := by
  obtain ⟨row, hrow, hid⟩ := h
  exact ⟨row, hm.idempotencyKeys hc hrow, hid⟩

/-- A key row names one identifier for all events filed under its stream and key. -/
theorem Store.KeyNames.unique {ev' : EventRecord} {id' : UUID} {stream key : String}
    (h : db.KeyNames ev id) (h' : db.KeyNames ev' id') (hev : ev.filedUnder stream key = true)
    (hev' : ev'.filedUnder stream key = true) : id = id' := by
  obtain ⟨row, hrow, rfl⟩ := h
  obtain ⟨row', hrow', rfl⟩ := h'
  obtain ⟨hstream, hkey⟩ := of_decide_eq_true hev
  obtain ⟨hstream', hkey'⟩ := of_decide_eq_true hev'
  rw [hstream, hkey] at hrow
  rw [hstream', hkey', hrow] at hrow'
  rw [Option.some.inj hrow']

theorem Call.Keyed.mutate (h : d.Keyed db) (hm : Call.Mutation env db c db')
    (hc : c.cleaning = false) : d.Keyed db' := by
  cases d with
  | appendLookup ev existingID => exact Store.KeyNames.mutate h hm hc
  | appendPublished ev existing => exact Store.KeyNames.mutate h hm hc
  | appendIndex ev newID => exact Store.KeyNames.mutate h hm hc
  | appendBatch ev newID => exact fun hkey => (h hkey).mutate hm hc
  | _ => trivial

/-- After its statement, the next statement of a keyed call is keyed. The key row
that a conditional insert just wrote names the identifier of its own call. -/
theorem Call.Keyed.next {report : Report} (h : c.Keyed db) (hc : c.cleaning = false)
    (hd : c.next report env db = .call d) : d.Keyed (c.effect report env db) := by
  have hstable : ∀ ev id, db.KeyNames ev id → (c.effect report env db).KeyNames ev id := by
    intro ev id hnames
    exact Call.effect_keeps hnames fun _ _ hm => hnames.mutate hm hc
  cases Call.next_leads hd with
  | appendIndex hnone =>
    have hreport : report ≠ .refused := by
      rintro rfl
      cases hd
    simp [Call.Keyed, Call.effect, if_neg hreport, Call.exec, hnone, Store.KeyNames,
      Store.insertKey]
  | appendLookup hrow => exact hstable _ _ ⟨_, hrow, rfl⟩
  | appendPublished => exact hstable _ _ h
  | appendBatch => exact fun _ => hstable _ _ h
  | cleanup _ hcleaning => cases d <;> trivial
  | _ => trivial

end Keys

/-- What a call reports is the event of an append batch or of a found event. -/
theorem Call.mem_reports {c : Call} {report : Report} {env : Env} {db : Store} {ev : EventRecord}
    {res : AppendResult} (h : (ev, res) ∈ c.reports (c.next report env db)) :
    (∃ newID, c = .appendBatch ev newID ∧ report = .ok ∧
      res = ⟨{ ev with id := newID }, false, false⟩) ∨
    ∃ existing published, c = .appendPublished ev existing ∧ res = ⟨existing, true, published⟩ := by
  have hnext := Call.next_of_mem_reports h
  have hok := Call.report_of_appended hnext
  rw [hnext] at h
  simp only [Call.reports, List.mem_map, Option.mem_toList, Prod.mk.injEq] at h
  obtain ⟨ev', hev, rfl, -⟩ := h
  cases Call.next_returns hnext with
  | inserted =>
    cases hev
    exact Or.inl ⟨_, rfl, hok, rfl⟩
  | found =>
    cases hev
    exact Or.inr ⟨_, _, rfl, rfl⟩
  | silent hsilent => cases hsilent

/-- A call reports at most one result. -/
theorem Call.reports_cases (c : Call) (next : Next) :
    c.reports next = [] ∨ ∃ r, c.reports next = [r] := by
  cases next with
  | call d => exact Or.inl rfl
  | done r =>
    cases r with
    | appended res =>
      cases hev : c.event with
      | none => exact Or.inl (by simp [Call.reports, hev])
      | some ev => exact Or.inr ⟨(ev, res), by simp [Call.reports, hev]⟩
    | _ => exact Or.inl rfl

/-- An operation other than `CleanupExpired` never turns into one. -/
theorem Call.Leads.cleaning {env : Env} {db : Store} {c d : Call} (h : Call.Leads env db c d)
    (hc : c.cleaning = false) : d.cleaning = false := by
  cases h with
  | cleanup hcleaning => exact absurd hcleaning (by simp [hc])
  | _ => rfl

/-- Executing a statement of a run without cleanup keeps keys and events together. -/
theorem System.Keyed.perform {s : System} (h : s.Keyed) (htraced : s.Traced) {p : ℕ} {c : Call}
    {since : Time} {report : Report} {env : Env}
    (hslot : s.slots.get p = some (.running c since)) : (s.perform p c report env).Keyed := by
  have hcall := System.callOf_of_running hslot
  have hc := h.calls p c hcall
  have hclean := h.idle p c hcall
  have hstable : ∀ ev id, s.db.KeyNames ev id →
      (s.perform p c report env).db.KeyNames ev id := by
    intro ev id hnames
    exact Call.effect_keeps hnames fun _ _ hm => hnames.mutate hm hclean
  constructor
  · intro q d hd
    rcases System.callOf_perform_cases hd with ⟨-, hd⟩ | ⟨-, hd⟩
    · exact (Call.next_leads hd).cleaning hclean
    · exact h.idle q d hd
  · intro q d hd
    rcases System.callOf_perform_cases hd with ⟨-, hd⟩ | ⟨-, hd⟩
    · exact hc.next hclean hd
    · have hkeyed := h.calls q d hd
      exact Call.effect_keeps hkeyed fun _ _ hm => hkeyed.mutate hm hclean
  · intro ev id hmem hkey
    rcases List.mem_append.mp hmem with hmem | hmem
    · obtain ⟨rfl, -⟩ := Call.mem_inserts hmem
      exact hstable _ _ (hc hkey)
    · exact hstable _ _ (h.inserted ev id hmem hkey)
  · intro ev res hmem hkey
    rcases List.mem_append.mp hmem with hmem | hmem
    · rcases Call.mem_reports hmem with ⟨newID, rfl, -, rfl⟩ | ⟨existing, published, rfl, rfl⟩
      · exact hstable _ _ (hc hkey)
      · exact hstable _ _ hc
    · exact hstable _ _ (h.returned ev res hmem hkey)
  · intro ev res hmem hnew
    rcases List.mem_append.mp hmem with hmem | hmem
    · rcases Call.mem_reports hmem with ⟨newID, rfl, rfl, rfl⟩ | ⟨existing, published, rfl, rfl⟩
      · simp [System.perform, Call.inserts]
      · cases hnew
    · simp only [System.perform, List.map_append, List.mem_append]
      exact Or.inr (h.new ev res hmem hnew)
  · simp only [System.perform, List.filter_append, List.map_append]
    rcases c.reports_cases (c.next report env s.db) with hnil | ⟨⟨ev, res⟩, hone⟩
    · simpa [hnil] using h.once
    · have hmem : (ev, res) ∈ c.reports (c.next report env s.db) := by simp [hone]
      rcases Call.mem_reports hmem with ⟨newID, rfl, -, rfl⟩ | ⟨existing, published, rfl, rfl⟩
      · have hfresh : newID ∉ s.inserted.map Prod.snd := (htraced.fresh p _ newID hcall rfl).2
        rw [hone]
        simp only [List.filter_cons, List.filter_nil, Bool.not_false, if_true, List.map_cons,
          List.map_nil, List.singleton_append, List.nodup_cons]
        refine ⟨?_, h.once⟩
        intro hold
        obtain ⟨⟨ev', res'⟩, hres, hid⟩ := List.mem_map.mp hold
        obtain ⟨hres, hdup⟩ := List.mem_filter.mp hres
        apply hfresh
        rw [← hid]
        exact h.new ev' res' hres (by simpa using hdup)
      · rw [hone]
        simpa using h.once

/-- An operation other than `CleanupExpired` starts with another statement. -/
theorem Op.begin_cleaning (op : Op) (now : Time) {p : ℕ}
    (h : (Label.start p op).startsCleanup = false) : (op.begin now).cleaning = false := by
  cases op with
  | append ev newID =>
    simp only [Op.begin]
    split_ifs <;> rfl
  | cleanup args => cases h
  | _ => rfl

/-- Every step of a run without cleanup keeps keys and events together. -/
theorem System.Keyed.step {s s' : System} {l : Label} (h : s.Keyed) (htraced : s.Traced)
    (hok : withoutCleanup s l) (hstep : s.Steps l s') : s'.Keyed := by
  cases hstep with
  | tick hclock => exact ⟨h.idle, h.calls, h.inserted, h.returned, h.new, h.once⟩
  | start hidle hfresh =>
    rename_i p op
    refine ⟨?_, ?_, h.inserted, h.returned, h.new, h.once⟩
    · intro q c hc
      rcases System.callOf_launch_cases hc with ⟨-, rfl⟩ | ⟨-, hc⟩
      · exact op.begin_cleaning _ hok
      · exact h.idle q c hc
    · intro q c hc
      rcases System.callOf_launch_cases hc with ⟨-, rfl⟩ | ⟨-, hc⟩
      · cases op with
        | append ev newID =>
          simp only [Op.begin]
          split_ifs with hkey
          · exact fun hne => absurd hkey hne
          · trivial
        | _ => trivial
      · exact h.calls q c hc
  | exec hslot hsince hnow => exact h.perform htraced hslot
  | crash hslot =>
    exact ⟨fun q d hd => h.idle q d (System.callOf_of_crash hd).2,
      fun q d hd => h.calls q d (System.callOf_of_crash hd).2,
      h.inserted, h.returned, h.new, h.once⟩

/-- Keys and events stay together in every run without cleanup. -/
theorem System.Reachable.keyed {s : System} (h : s.Reachable withoutCleanup) : s.Keyed := by
  refine (h.invariant (I := fun s => s.Traced ∧ s.Keyed) ?_ ?_).2
  · intro clock
    refine ⟨System.traced_init clock, ?_, ?_, ?_, ?_, ?_, List.nodup_nil⟩
    · exact fun p c hc => by cases hc
    · exact fun p c hc => by cases hc
    · exact fun ev id hmem => by cases hmem
    · exact fun ev res hmem => by cases hmem
    · exact fun ev res hmem => by cases hmem
  · rintro a l b ⟨htraced, hkeyed⟩ hok hstep
    exact ⟨htraced.step hstep, hkeyed.step htraced hok hstep⟩

/-- A list whose values are pairwise distinct and all equal has at most one element. -/
private theorem length_le_one_of_nodup {α β : Type*} {f : α → β} {xs : List α}
    (hnodup : (xs.map f).Nodup) (hall : ∀ x ∈ xs, ∀ y ∈ xs, f x = f y) : xs.length ≤ 1 := by
  cases xs with
  | nil => simp
  | cons x xs =>
    cases xs with
    | nil => simp
    | cons y xs =>
      have heq := hall x (by simp) y (by simp)
      simp [heq] at hnodup

/-- **Exactly-once append.** In every interleaving without cleanup, at most one
event is inserted for a stream and a non-empty idempotency key, at most one call
reports a new event, and all successful calls return the same identifier. The
events of the three event tables are exactly the recorded insertions. -/
theorem append_exactly_once {s : System} (h : s.Reachable withoutCleanup) {stream key : String}
    (hkey : key ≠ "") :
    (s.inserted.filter fun e => e.1.filedUnder stream key).length ≤ 1 ∧
    (s.returns.filter fun r => r.1.filedUnder stream key && !r.2.duplicate).length ≤ 1 ∧
    (∀ r ∈ s.returns, ∀ r' ∈ s.returns, r.1.filedUnder stream key = true →
      r'.1.filedUnder stream key = true → r.2.event.id = r'.2.event.id) ∧
    ∀ id, ((∃ row, s.db.eventsById id = some row) ∨ (∃ row, s.db.outboxEvents id = some row) ∨
        ∃ stream t body, (s.db.eventsByStream stream).get (toLex (t, id)) = some body) ↔
      id ∈ s.inserted.map Prod.snd := by
  have hkeyed := h.keyed
  have htraced := h.traced
  have hfiled : ∀ ev : EventRecord, ev.filedUnder stream key = true → ev.idempotencyKey ≠ "" := by
    intro ev hev
    rwa [(of_decide_eq_true hev).2]
  have hreturns : ∀ r ∈ s.returns, ∀ r' ∈ s.returns, r.1.filedUnder stream key = true →
      r'.1.filedUnder stream key = true → r.2.event.id = r'.2.event.id := by
    rintro ⟨ev, res⟩ hr ⟨ev', res'⟩ hr' hev hev'
    have hnames := hkeyed.returned ev res hr (hfiled ev hev)
    have hnames' := hkeyed.returned ev' res' hr' (hfiled ev' hev')
    exact hnames.unique hnames' hev hev'
  refine ⟨?_, ?_, hreturns, htraced.store.stored_iff⟩
  · refine length_le_one_of_nodup (htraced.nodup.sublist (List.filter_sublist.map _)) ?_
    intro e he e' he'
    obtain ⟨hins, hev⟩ := List.mem_filter.mp he
    obtain ⟨hins', hev'⟩ := List.mem_filter.mp he'
    have hnames := hkeyed.inserted e.1 e.2 hins (hfiled e.1 hev)
    have hnames' := hkeyed.inserted e'.1 e'.2 hins' (hfiled e'.1 hev')
    exact hnames.unique hnames' hev hev'
  · rw [← List.filter_filter]
    refine length_le_one_of_nodup (hkeyed.once.sublist (List.filter_sublist.map _)) ?_
    intro r hr r' hr'
    obtain ⟨hnew, hev⟩ := List.mem_filter.mp hr
    obtain ⟨hnew', hev'⟩ := List.mem_filter.mp hr'
    exact hreturns r (List.mem_filter.mp hnew).1 r' (List.mem_filter.mp hnew').1 hev hev'

/-- The event of a first request, as the examples below append it. -/
def orderCreated : EventRecord where
  stream := "orders"
  subject := "events.orders"
  eventType := "order.created"
  payload := "A-1001"
  idempotencyKey := "order-A1001-v1"
  occurredAt := 5000000

/-- Client `p` executes its next `n` statements at instant `now`, all acknowledged. -/
def execs (p n : ℕ) (now : Time) : List Label := List.replicate n (.exec p .ok { now })

/-- A client appends an order, and a second one repeats the request under the same
key with another payload. -/
theorem append_exactly_once_orders : ∃ s : System, s.Reachable withoutCleanup ∧
    s.returns.length = 2 ∧
    (s.inserted.filter fun e => e.1.filedUnder "orders" "order-A1001-v1").length ≤ 1 := by
  obtain ⟨s, hs, hlength⟩ := System.Reachable.of_play withoutCleanup
    (fun _ l => !l.startsCleanup) (fun _ l h => by simpa [withoutCleanup] using h) 5000000
    (.start 0 (.append orderCreated 1) :: execs 0 3 5000000 ++
      .start 1 (.append { orderCreated with payload := "A-1002" } 2) :: execs 1 3 5000000)
    (fun s => decide (s.returns.length = 2)) (by decide)
  exact ⟨s, hs, of_decide_eq_true hlength, (append_exactly_once hs (by decide)).1⟩

end ControlPlane
