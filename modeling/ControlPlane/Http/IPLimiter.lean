import ControlPlane.Clustered
import ControlPlane.Transition
import ControlPlane.Config.Durations
import ControlPlane.Http.Address
import Mathlib.Data.List.MinMax
import Mathlib.Data.List.Nodup
import Mathlib.Data.String.Basic

/-!
# The limiter of addresses

`ipRateLimiter` keeps a limiter for every address it has seen lately. A sweep drops the
entries that were not seen for a while, and a full table makes room by dropping the entry
that was seen first. The loop that looks for that entry starts from the empty text and takes
the empty text at its end as a sign that there is nothing to drop, while the empty text is an
address like any other.
-/

namespace ControlPlane

open Transition

/-- The limiters of `golang.org/x/time/rate`: how one is made from a rate and a burst, and what
`Allow` answers and leaves. -/
structure RateLib (L : Type*) where
  newLimiter : ℤ → ℤ → L
  allow : Time → L → Bool × L

/-- `ipLimiterEntry`. -/
structure LimiterEntry (L : Type*) where
  lim : L
  lastSeen : Time

/-- `ipRateLimiter`. -/
structure IPRateLimiter (L : Type*) where
  r : ℤ
  b : ℤ
  maxIPs : ℤ
  ttl : Duration
  nextSweep : Time
  data : Clustered String (LimiterEntry L)
  lastEvictedIP : String := ""

/-- A call `Allow(clientIP(remoteAddr))`: the two readings of the clock, and the order in which
a loop over the map would visit its keys. -/
structure LimiterCall where
  remoteAddr : String
  now : Time
  drawn : Time
  order : List String

def LimiterCall.ip (call : LimiterCall) : String := clientIP call.remoteAddr

def minute : Duration := 60 * second

/-- The variables of the loop of `evictOldestLocked`. -/
structure Oldest where
  oldestIP : String := ""
  oldestSeen : Time := zeroTime
  first : Bool := true

namespace IPRateLimiter

variable {L : Type*}

def newIPRateLimiter (r b maxIPs : ℤ) (ttl : Duration) (now : Time) : IPRateLimiter L where
  r := r
  b := b
  maxIPs := max 100 maxIPs
  ttl := ttl
  nextSweep := now + minute
  data := .empty

variable (l : IPRateLimiter L)

def sweepLocked (now : Time) : IPRateLimiter L :=
  if l.ttl ≤ 0 then { l with nextSweep := now + minute }
  else
    { l with
      data := l.data.keep fun row => ¬row.2.lastSeen < now - l.ttl
      nextSweep := now + minute }

/-- When the address was last seen. -/
def seen (ip : String) : Time := ((l.data.get ip).map LimiterEntry.lastSeen).getD zeroTime

/-- The body of the loop of `evictOldestLocked`. -/
def older (o : Oldest) (ip : String) : Oldest :=
  if o.first ∨ l.seen ip < o.oldestSeen then ⟨ip, l.seen ip, false⟩ else o

def evictOldestLocked (order : List String) : IPRateLimiter L :=
  let o := order.foldl l.older {}
  if o.oldestIP ≠ "" then
    { l with data := l.data.erase o.oldestIP, lastEvictedIP := o.oldestIP }
  else l

/-- The table as a call finds it after the sweep, if one is due. -/
def swept (now : Time) : IPRateLimiter L := if l.nextSweep < now then l.sweepLocked now else l

/-- The table with room for the caller's entry, and the limiter of that entry. -/
def addVisitor (rate : RateLib L) (call : LimiterCall) : IPRateLimiter L × L :=
  let l := l.swept call.now
  match l.data.get call.ip with
  | some entry => (l, entry.lim)
  | none =>
    let l := if l.maxIPs ≤ l.data.rows.length then l.evictOldestLocked call.order else l
    (l, rate.newLimiter l.r l.b)

def allow (rate : RateLib L) (call : LimiterCall) : Bool × IPRateLimiter L :=
  let (l, lim) := l.addVisitor rate call
  let (ok, lim) := rate.allow call.drawn lim
  (ok, { l with data := l.data.put call.ip ⟨lim, call.now⟩ })

/-- The call finds the table full of other addresses. -/
def Evicts (call : LimiterCall) : Prop :=
  (l.swept call.now).data.get call.ip = none ∧
    l.maxIPs ≤ (l.swept call.now).data.rows.length

instance (call : LimiterCall) : Decidable (l.Evicts call) := inferInstanceAs (Decidable (_ ∧ _))

/-- A loop over the map visits every key once, in any order. -/
def step (rate : RateLib L) (call : LimiterCall) : Option (IPRateLimiter L) :=
  if l.Evicts call → call.order.Perm ((l.swept call.now).data.rows.map Prod.fst) then
    some (l.allow rate call).2
  else none

/-- What a call is to leave: at most `bound` entries, among them the caller's, and without those
only that were last seen more than `ttl` before a sweep, or before all others of a full table. -/
structure Bounded (bound : ℤ) (call : LimiterCall) (l' : IPRateLimiter L) : Prop where
  size : l'.data.rows.length ≤ bound
  tracked : (l'.data.get call.ip).isSome
  dropped : ∀ ip entry, l.data.get ip = some entry → l'.data.get ip = none →
    (l.nextSweep < call.now ∧ entry.lastSeen < call.now - l.ttl) ∨
      (bound ≤ (l.swept call.now).data.rows.length ∧
        ∀ ip' entry', (l.swept call.now).data.get ip' = some entry' →
          entry.lastSeen ≤ entry'.lastSeen)

/-- The call finds the table full of other addresses, and the entry of the empty address is the
one to drop: no entry was seen earlier, and the loop comes to it before all that were seen at
the same time. -/
structure Blind (call : LimiterCall) : Prop where
  evicts : l.Evicts call
  listed : "" ∈ call.order
  oldest : ∀ ip ∈ call.order, (l.swept call.now).seen "" ≤ (l.swept call.now).seen ip
  first : ∀ ip ∈ call.order, (l.swept call.now).seen ip ≤ (l.swept call.now).seen "" →
    call.order.idxOf "" ≤ call.order.idxOf ip

variable {l} {call : LimiterCall} {rate : RateLib L} {l' : IPRateLimiter L}

/-- The first of the keys that were seen earliest. -/
structure Earliest (l : IPRateLimiter L) (order : List String) (m : String) : Prop where
  listed : m ∈ order
  oldest : ∀ ip ∈ order, l.seen m ≤ l.seen ip
  first : ∀ ip ∈ order, l.seen ip ≤ l.seen m → order.idxOf m ≤ order.idxOf ip

theorem Earliest.unique {order : List String} {m m' : String} (h : l.Earliest order m)
    (h' : l.Earliest order m') : m = m' := by
  have hm : order.argmin l.seen = some m :=
    List.argmin_eq_some_iff.mpr ⟨h.listed, h.oldest, h.first⟩
  have hm' : order.argmin l.seen = some m' :=
    List.argmin_eq_some_iff.mpr ⟨h'.listed, h'.oldest, h'.first⟩
  exact Option.some.inj (hm.symm.trans hm')

/-- The loop finds that key. -/
theorem foldl_older {order : List String} (hne : order ≠ []) :
    l.Earliest order (order.foldl l.older {}).oldestIP := by
  have hloop : order.foldl l.older {} =
      ((order.argmin l.seen).map fun ip => ⟨ip, l.seen ip, false⟩).getD {} := by
    clear hne
    induction order using List.reverseRecOn with
    | nil => rfl
    | append_singleton order ip ih =>
      rw [List.foldl_concat, ih, List.argmin_concat]
      cases order.argmin l.seen with
      | none => simp [older]
      | some m =>
        by_cases hlt : l.seen ip < l.seen m <;> simp [older, hlt]
  cases hfound : order.argmin l.seen with
  | none => exact absurd (List.argmin_eq_none.mp hfound) hne
  | some m =>
    rw [hloop, hfound]
    obtain ⟨hlisted, holdest, hfirst⟩ := List.argmin_eq_some_iff.mp hfound
    exact ⟨hlisted, holdest, hfirst⟩

section Sweep

variable {now : Time} {ip : String} {entry : LimiterEntry L}

@[simp] theorem swept_maxIPs (l : IPRateLimiter L) (now : Time) :
    (l.swept now).maxIPs = l.maxIPs := by
  unfold swept sweepLocked
  split_ifs <;> rfl

theorem swept_of_le (h : now ≤ l.nextSweep) : l.swept now = l := if_neg (not_lt.mpr h)

/-- What is left after a sweep was there before. -/
theorem get_of_get_swept (h : (l.swept now).data.get ip = some entry) :
    l.data.get ip = some entry := by
  unfold swept sweepLocked at h
  split_ifs at h
  · exact h
  · exact (Clustered.get_keep.mp h).1
  · exact h

/-- A sweep drops only what was not seen for longer than `ttl`. -/
theorem old_of_swept (h : l.data.get ip = some entry) (hdrop : (l.swept now).data.get ip = none) :
    l.nextSweep < now ∧ entry.lastSeen < now - l.ttl := by
  unfold swept sweepLocked at hdrop
  split_ifs at hdrop with hdue httl
  · rw [h] at hdrop
    cases hdrop
  · refine ⟨hdue, ?_⟩
    by_contra hrecent
    have hkept : (l.data.keep fun row => ¬row.2.lastSeen < now - l.ttl).get ip = some entry :=
      Clustered.get_keep.mpr ⟨h, decide_eq_true hrecent⟩
    rw [hkept] at hdrop
    cases hdrop
  · rw [h] at hdrop
    cases hdrop

theorem length_swept_le (l : IPRateLimiter L) (now : Time) :
    (l.swept now).data.rows.length ≤ l.data.rows.length := by
  unfold swept sweepLocked
  split_ifs
  · exact le_refl _
  · exact List.length_filter_le ..
  · exact le_refl _

end Sweep

/-- The table in which the caller's entry is put. -/
def room (l : IPRateLimiter L) (call : LimiterCall) : IPRateLimiter L :=
  if l.Evicts call then (l.swept call.now).evictOldestLocked call.order else l.swept call.now

theorem addVisitor_fst (l : IPRateLimiter L) (rate : RateLib L) (call : LimiterCall) :
    (l.addVisitor rate call).1 = l.room call := by
  unfold addVisitor room
  dsimp only
  split
  · rename_i entry hget
    have hknown : ¬l.Evicts call := by simp [Evicts, hget]
    rw [if_neg hknown]
  · rename_i hget
    have hevicts : l.Evicts call ↔ l.maxIPs ≤ (l.swept call.now).data.rows.length := by
      simp [Evicts, hget]
    simp only [hevicts, swept_maxIPs]

theorem evictOldestLocked_maxIPs (l : IPRateLimiter L) (order : List String) :
    (l.evictOldestLocked order).maxIPs = l.maxIPs := by
  unfold evictOldestLocked
  dsimp only
  split_ifs <;> rfl

@[simp] theorem room_maxIPs (l : IPRateLimiter L) (call : LimiterCall) :
    (l.room call).maxIPs = l.maxIPs := by
  unfold room
  split_ifs
  · rw [evictOldestLocked_maxIPs, swept_maxIPs]
  · exact swept_maxIPs l call.now

/-- A call puts the caller's entry, seen now. -/
theorem allow_eq (l : IPRateLimiter L) (rate : RateLib L) (call : LimiterCall) :
    ∃ lim, (l.allow rate call).2 =
      { l.room call with data := (l.room call).data.put call.ip ⟨lim, call.now⟩ } := by
  rw [← addVisitor_fst l rate call]
  exact ⟨_, rfl⟩

/-- The empty address is the one that the loop looks for. -/
theorem blind_iff (h : l.Evicts call) :
    l.Blind call ↔ (l.swept call.now).Earliest call.order "" :=
  ⟨fun hblind => ⟨hblind.listed, hblind.oldest, hblind.first⟩,
    fun hfirst => ⟨h, hfirst.listed, hfirst.oldest, hfirst.first⟩⟩

/-- Where the loop finds the empty address, nothing is dropped. -/
theorem room_of_blind (h : l.Blind call) : l.room call = l.swept call.now := by
  have hfirst := (blind_iff h.evicts).mp h
  have hfound := (foldl_older (List.ne_nil_of_mem h.listed)).unique hfirst
  rw [room, if_pos h.evicts, evictOldestLocked, hfound]
  simp

/-- Where it finds another one, that entry is dropped. -/
theorem room_of_earliest (h : l.Evicts call) {m : String}
    (hm : (l.swept call.now).Earliest call.order m) (hne : m ≠ "") :
    (l.room call).data = (l.swept call.now).data.erase m := by
  have hfound := (foldl_older (List.ne_nil_of_mem hm.listed)).unique hm
  rw [room, if_pos h, evictOldestLocked, hfound]
  simp [hne]

/-- Otherwise the entry that was seen first is dropped. -/
theorem room_of_evicts (h : l.Evicts call) (hpos : 0 < l.maxIPs)
    (horder : call.order.Perm ((l.swept call.now).data.rows.map Prod.fst))
    (hblind : ¬l.Blind call) :
    ∃ m entry, (l.swept call.now).data.get m = some entry ∧
      (∀ ip entry', (l.swept call.now).data.get ip = some entry' →
        entry.lastSeen ≤ entry'.lastSeen) ∧
      (l.room call).data = (l.swept call.now).data.erase m := by
  have hfull := h.2
  -- the table is full, so that there is something to drop
  have hnonempty : call.order ≠ [] := by
    intro hnil
    have hlength := horder.length_eq
    rw [hnil, List.length_map, List.length_nil] at hlength
    omega
  have hkeys : ∀ ip, ip ∈ call.order ↔ ∃ entry, (l.swept call.now).data.get ip = some entry := by
    intro ip
    rw [horder.mem_iff, List.mem_map]
    constructor
    · rintro ⟨row, hrow, rfl⟩
      exact ⟨row.2, Clustered.mem_rows.mp hrow⟩
    · rintro ⟨entry, hentry⟩
      exact ⟨(ip, entry), Clustered.mem_rows.mpr hentry, rfl⟩
  have hfound : (l.swept call.now).Earliest call.order _ := foldl_older hnonempty
  generalize (call.order.foldl (l.swept call.now).older {}).oldestIP = m at hfound
  have hne : m ≠ "" := fun heq => hblind ((blind_iff h).mpr (heq ▸ hfound))
  obtain ⟨entry, hentry⟩ := (hkeys m).mp hfound.listed
  refine ⟨m, entry, hentry, ?_, room_of_earliest h hfound hne⟩
  intro ip entry' hentry'
  have hle := hfound.oldest ip ((hkeys ip).mpr ⟨entry', hentry'⟩)
  simpa [seen, hentry, hentry'] using hle

theorem step_eq_some : l.step rate call = some l' ↔
    (l.Evicts call → call.order.Perm ((l.swept call.now).data.rows.map Prod.fst)) ∧
      (l.allow rate call).2 = l' := by
  unfold step
  split_ifs with horder
  · rw [Option.some.injEq]
    exact (and_iff_right horder).symm
  · exact iff_of_false (by simp) fun h => horder h.1

/-- Putting the caller's entry drops nothing. -/
theorem get_room_of_allow {ip : String} (h : (l.allow rate call).2.data.get ip = none) :
    (l.room call).data.get ip = none := by
  obtain ⟨lim, hallow⟩ := allow_eq l rate call
  rw [hallow, Clustered.get_put] at h
  split_ifs at h
  exact h

/-- Sweeping and evicting track no new address. -/
theorem get_room_eq_none {ip : String} (h : l.data.get ip = none) :
    (l.room call).data.get ip = none := by
  have hswept : (l.swept call.now).data.get ip = none := by
    rw [Option.eq_none_iff_forall_ne_some]
    intro entry hentry
    rw [get_of_get_swept hentry] at h
    cases h
  unfold room evictOldestLocked
  dsimp only
  split_ifs
  · rw [Clustered.get_erase, hswept, ite_self]
  · exact hswept
  · exact hswept

/-- A blind call finds the table full and adds an entry. -/
theorem length_of_blind (h : l.Blind call) : l.maxIPs < (l.allow rate call).2.data.rows.length := by
  obtain ⟨lim, hallow⟩ := allow_eq l rate call
  have hfull := h.evicts.2
  rw [hallow, room_of_blind h, Clustered.length_put_of_none _ h.evicts.1]
  omega

/-- A call that does not evict finds the caller's entry or a free place, and drops nothing but
what the sweep drops. -/
theorem bounded_of_not_evicts (hsize : l.data.rows.length ≤ l.maxIPs) (h : ¬l.Evicts call) :
    l.Bounded l.maxIPs call (l.allow rate call).2 := by
  obtain ⟨lim, hallow⟩ := allow_eq l rate call
  have hroom : l.room call = l.swept call.now := if_neg h
  have hswept := length_swept_le l call.now
  refine ⟨?_, by simp [hallow], ?_⟩
  · rw [hallow, hroom]
    cases hget : (l.swept call.now).data.get call.ip with
    | some entry =>
      rw [Clustered.length_put_of_some _ hget]
      omega
    | none =>
      have hfree : ¬l.maxIPs ≤ (l.swept call.now).data.rows.length := fun hfull => h ⟨hget, hfull⟩
      rw [Clustered.length_put_of_none _ hget]
      omega
  · intro ip entry hentry hdrop
    have hgone := get_room_of_allow hdrop
    rw [hroom] at hgone
    exact Or.inl (old_of_swept hentry hgone)

/-- A call that evicts and is not blind drops the entry that was seen first. -/
theorem bounded_of_evicts (hpos : 0 < l.maxIPs) (hsize : l.data.rows.length ≤ l.maxIPs)
    (h : l.Evicts call) (hblind : ¬l.Blind call)
    (horder : call.order.Perm ((l.swept call.now).data.rows.map Prod.fst)) :
    l.Bounded l.maxIPs call (l.allow rate call).2 := by
  obtain ⟨lim, hallow⟩ := allow_eq l rate call
  obtain ⟨m, oldest, hm, hmin, hroom⟩ := room_of_evicts h hpos horder hblind
  have hswept := length_swept_le l call.now
  have herase := Clustered.length_erase_of_some hm
  refine ⟨?_, by simp [hallow], ?_⟩
  · have hnew : ((l.swept call.now).data.erase m).get call.ip = none := by
      rw [Clustered.get_erase, h.1, ite_self]
    rw [hallow, hroom, Clustered.length_put_of_none _ hnew]
    omega
  · intro ip entry hentry hdrop
    have hgone := get_room_of_allow hdrop
    rw [hroom, Clustered.get_erase] at hgone
    split_ifs at hgone with hip
    · subst hip
      cases hentry.symm.trans (get_of_get_swept hm)
      exact Or.inr ⟨h.2, hmin⟩
    · exact Or.inl (old_of_swept hentry hgone)

/-- Within the bound, a call leaves what it is to leave exactly if it is not blind. -/
theorem bounded_iff (hpos : 0 < l.maxIPs) (hsize : l.data.rows.length ≤ l.maxIPs)
    (hstep : l.step rate call = some l') : l.Bounded l.maxIPs call l' ↔ ¬l.Blind call := by
  obtain ⟨horder, rfl⟩ := step_eq_some.mp hstep
  constructor
  · intro hbounded hblind
    exact absurd (length_of_blind hblind) (not_lt.mpr hbounded.size)
  · intro hblind
    by_cases hevicts : l.Evicts call
    · exact bounded_of_evicts hpos hsize hevicts hblind (horder hevicts)
    · exact bounded_of_not_evicts hsize hevicts

section Runs

variable {r b maxIPs : ℤ} {ttl : Duration} {start : Time}

/-- In a run without blind calls the table stays within its bound. -/
theorem within_of_run
    (h : Run (fun l call => l.step rate call) (fun l call => ¬l.Blind call)
      (newIPRateLimiter r b maxIPs ttl start) l) :
    l.maxIPs = max 100 maxIPs ∧ l.data.rows.length ≤ l.maxIPs := by
  refine h.invariant (I := fun l => l.maxIPs = max 100 maxIPs ∧ (l.data.rows.length : ℤ) ≤ l.maxIPs)
    ⟨rfl, ?_⟩ ?_
  · exact le_max_of_le_left (by simp [newIPRateLimiter, Clustered.empty])
  · rintro a call b ⟨hmax, hsize⟩ hblind hstep
    have hpos : 0 < a.maxIPs := by omega
    have hbounded := (bounded_iff hpos hsize hstep).mpr hblind
    obtain ⟨-, rfl⟩ := step_eq_some.mp hstep
    obtain ⟨lim, hallow⟩ := allow_eq a rate call
    have hsame : (a.allow rate call).2.maxIPs = a.maxIPs := by rw [hallow, room_maxIPs]
    exact ⟨hsame.trans hmax, by rw [hsame]; exact hbounded.size⟩

/-- After a run without blind calls, the next call leaves at most `max 100 maxIPs` entries, with
the caller's among them, and drops only old entries and the oldest of a full table, exactly if
it is not blind itself. -/
theorem limiter_bounded_iff
    (h : Run (fun l call => l.step rate call) (fun l call => ¬l.Blind call)
      (newIPRateLimiter r b maxIPs ttl start) l)
    (hstep : l.step rate call = some l') :
    l.Bounded (max 100 maxIPs) call l' ↔ ¬l.Blind call := by
  obtain ⟨hmax, hsize⟩ := within_of_run h
  have hpos : 0 < l.maxIPs := by omega
  rw [← hmax]
  exact bounded_iff hpos hsize hstep

/-- The call comes from an address: the remote address is not empty and has text before its
first colon. -/
def HasAddress (call : LimiterCall) : Prop :=
  call.remoteAddr ≠ "" ∧ ∀ rest, call.remoteAddr.toList ≠ ':' :: rest

/-- No call is blind while all calls come from addresses. -/
theorem not_blind_of_hasAddress
    (h : Run (fun l call => l.step rate call) (fun _ call => HasAddress call)
      (newIPRateLimiter r b maxIPs ttl start) l)
    (hstep : l.step rate call = some l') : ¬l.Blind call := by
  have huntracked : l.data.get "" = none := by
    refine h.invariant (I := fun l => l.data.get "" = none) rfl ?_
    intro a call b ha haddress hstep
    obtain ⟨-, rfl⟩ := step_eq_some.mp hstep
    obtain ⟨lim, hallow⟩ := allow_eq a rate call
    have hip : "" ≠ call.ip := by
      intro hip
      rcases clientIP_eq_empty.mp hip.symm with hempty | ⟨rest, hcolon⟩
      · exact haddress.1 hempty
      · exact haddress.2 rest hcolon
    rw [hallow, Clustered.get_put, if_neg hip]
    exact get_room_eq_none ha
  intro hblind
  have hkeys := (step_eq_some.mp hstep).1 hblind.evicts
  obtain ⟨row, hrow, hempty⟩ := List.mem_map.mp (hkeys.mem_iff.mp hblind.listed)
  have hget := get_of_get_swept (Clustered.mem_rows.mp hrow)
  rw [hempty, huntracked] at hget
  cases hget

/-- Before the first sweep, the limiter tracks exactly these callers, each as it was seen. -/
structure Tracks (l : IPRateLimiter L) (maxIPs : ℤ) (start : Time) (calls : List LimiterCall) :
    Prop where
  limit : l.maxIPs = max 100 maxIPs
  sweep : l.nextSweep = start + minute
  length : l.data.rows.length = calls.length
  lastSeen : ∀ ip, (l.data.get ip).map LimiterEntry.lastSeen =
    (calls.find? fun call => call.ip = ip).map LimiterCall.now

section Tracks

variable {calls : List LimiterCall}

theorem Tracks.swept_eq (h : l.Tracks maxIPs start calls) {now : Time}
    (hsoon : now ≤ start + minute) : l.swept now = l := by
  apply swept_of_le
  rw [h.sweep]
  exact hsoon

/-- An address from which nobody called is not tracked. -/
theorem Tracks.get_eq_none (h : l.Tracks maxIPs start calls) {ip : String}
    (hip : ∀ call ∈ calls, call.ip ≠ ip) : l.data.get ip = none := by
  have hnone : calls.find? (fun call => call.ip = ip) = none := by
    rw [List.find?_eq_none]
    intro call hcall heq
    exact hip call hcall (of_decide_eq_true heq)
  have hget := h.lastSeen ip
  rw [hnone] at hget
  exact Option.map_eq_none_iff.mp hget

/-- A tracked address was last seen in one of the calls. -/
theorem Tracks.exists_call (h : l.Tracks maxIPs start calls) {row : String × LimiterEntry L}
    (hrow : row ∈ l.data.rows) : ∃ call ∈ calls, call.ip = row.1 ∧ l.seen row.1 = call.now := by
  have hget := h.lastSeen row.1
  rw [Clustered.mem_rows.mp hrow, Option.map_some] at hget
  obtain ⟨call, hcall, hnow⟩ := Option.map_eq_some_iff.mp hget.symm
  refine ⟨call, List.mem_of_find?_eq_some hcall, by simpa using List.find?_some hcall, ?_⟩
  rw [seen, Clustered.mem_rows.mp hrow, Option.map_some, Option.getD_some, hnow]

/-- A new caller is tracked as well, if there is room. -/
theorem Tracks.step (h : l.Tracks maxIPs start calls) (rate : RateLib L)
    (hnew : ∀ c ∈ calls, c.ip ≠ call.ip) (hfits : (calls.length : ℤ) + 1 ≤ max 100 maxIPs)
    (hsoon : call.now ≤ start + minute) :
    ¬l.Evicts call ∧
      ∃ l', l.step rate call = some l' ∧ l'.Tracks maxIPs start (calls ++ [call]) := by
  have hnone := h.get_eq_none hnew
  have hswept := h.swept_eq hsoon
  have hfree : ¬l.Evicts call := by
    rintro ⟨-, hfull⟩
    rw [hswept, h.limit, h.length] at hfull
    omega
  have hroom : l.room call = l := by rw [room, if_neg hfree, hswept]
  have hstep : l.step rate call = some (l.allow rate call).2 :=
    step_eq_some.mpr ⟨fun hevicts => absurd hevicts hfree, rfl⟩
  obtain ⟨lim, hallow⟩ := allow_eq l rate call
  rw [hroom] at hallow
  refine ⟨hfree, _, hstep, ?_⟩
  rw [hallow]
  refine ⟨h.limit, h.sweep, ?_, fun ip => ?_⟩
  · rw [Clustered.length_put_of_none _ hnone, h.length, List.length_append, List.length_singleton]
  · rw [Clustered.get_put, List.find?_append]
    by_cases hip : ip = call.ip
    · have hunknown : calls.find? (fun c => c.ip = ip) = none := by
        rw [List.find?_eq_none]
        intro c hc heq
        exact hnew c hc ((of_decide_eq_true heq).trans hip)
      rw [if_pos hip, hunknown]
      simp [hip]
    · have hother : [call].find? (fun c => c.ip = ip) = none := by simp [Ne.symm hip]
      rw [if_neg hip, hother, Option.or_none]
      exact h.lastSeen ip

/-- A limiter with room for all callers tracks each of them, and none of them makes it drop an
entry. -/
theorem run_of_room (rate : RateLib L) (hnodup : (calls.map LimiterCall.ip).Nodup)
    (hfits : (calls.length : ℤ) ≤ max 100 maxIPs)
    (hsoon : ∀ call ∈ calls, call.now ≤ start + minute) :
    ∃ l, Run (fun l call => l.step rate call) (fun l call => ¬l.Evicts call)
      (newIPRateLimiter r b maxIPs ttl start) l ∧ l.Tracks maxIPs start calls := by
  induction calls using List.reverseRecOn with
  | nil => exact ⟨_, .refl _, rfl, rfl, rfl, fun _ => rfl⟩
  | append_singleton calls call ih =>
    rw [List.map_append, List.nodup_append] at hnodup
    rw [List.length_append, List.length_singleton] at hfits
    obtain ⟨l, hrun, htracks⟩ := ih hnodup.1 (by omega) fun c hc =>
      hsoon c (List.mem_append_left _ hc)
    have hnew : ∀ c ∈ calls, c.ip ≠ call.ip := fun c hc =>
      hnodup.2.2 c.ip (List.mem_map_of_mem hc) call.ip (by simp)
    obtain ⟨hfree, l', hstep, htracks'⟩ := htracks.step rate hnew (by exact_mod_cast hfits)
      (hsoon call (by simp))
    exact ⟨l', .snoc hrun hfree hstep, htracks'⟩

end Tracks

end Runs

/-- Limiters that always allow. -/
def lenient : RateLib Unit := ⟨fun _ _ => (), fun _ lim => (true, lim)⟩

/-- A call from the given remote address in the given second, when the table is not full. -/
def callAt (remoteAddr : String) (secs : ℕ) : LimiterCall :=
  ⟨remoteAddr, secs * second, secs * second, []⟩

/-- A limiter for a hundred addresses. -/
def hundred : IPRateLimiter Unit := newIPRateLimiter 60 120 100 (900 * second) 0

/-- One client comes first, and then ninety-nine others. -/
def visitors (remoteAddr : String) : List LimiterCall :=
  callAt remoteAddr 1 ::
    (List.range 99).map fun k => callAt (String.ofList (List.replicate (k + 1) 'h')) 2

/-- One more client, for a loop in the order of the keys. -/
def oneMore (l : IPRateLimiter Unit) : LimiterCall :=
  { callAt "guest" 3 with order := l.data.rows.map Prod.fst }

section Visitors

variable {remoteAddr : String} {l : IPRateLimiter Unit}

/-- The addresses of the visitors. -/
theorem visitors_ip (remoteAddr : String) : (visitors remoteAddr).map LimiterCall.ip =
    clientIP remoteAddr ::
      (List.range 99).map fun k => String.ofList (List.replicate (k + 1) 'h') := by
  have hhost : ∀ k : ℕ, clientIP (String.ofList (List.replicate (k + 1) 'h')) =
      String.ofList (List.replicate (k + 1) 'h') := by
    intro k
    apply clientIP_of_notMem
    rw [String.toList_ofList]
    simp
  simp [visitors, callAt, LimiterCall.ip, hhost, Function.comp_def]

/-- An address that does not begin with the letter of the other visitors is not theirs. -/
theorem notMem_hosts {ip : String} (hip : ip.toList.head? ≠ some 'h') :
    ip ∉ (List.range 99).map fun k => String.ofList (List.replicate (k + 1) 'h') := by
  rw [List.mem_map]
  rintro ⟨k, -, rfl⟩
  rw [String.toList_ofList, List.replicate_succ, List.head?_cons] at hip
  exact hip rfl

theorem visitors_nodup (hfirst : (clientIP remoteAddr).toList.head? ≠ some 'h') :
    ((visitors remoteAddr).map LimiterCall.ip).Nodup := by
  rw [visitors_ip, List.nodup_cons]
  refine ⟨notMem_hosts hfirst, List.Nodup.map ?_ List.nodup_range⟩
  intro j k hjk
  have hlength := congrArg List.length (String.ofList_inj.mp hjk)
  simpa using hlength

/-- Every visitor but the first was seen in the second second. -/
theorem visitors_now (hfirst : (clientIP remoteAddr).toList.head? ≠ some 'h') {call : LimiterCall}
    (h : call ∈ visitors remoteAddr) : call.ip = clientIP remoteAddr ∧ call.now = second ∨
      call.ip ≠ clientIP remoteAddr ∧ call.now = 2 * second := by
  have hips := visitors_nodup hfirst
  rw [visitors, List.map_cons, List.nodup_cons] at hips
  rcases List.mem_cons.mp h with rfl | h
  · exact Or.inl ⟨rfl, rfl⟩
  · refine Or.inr ⟨fun hip => hips.1 ?_, ?_⟩
    · rw [LimiterCall.ip, callAt, ← hip]
      exact List.mem_map_of_mem h
    · obtain ⟨k, -, rfl⟩ := List.mem_map.mp h
      rfl

/-- The visitors fill the table, in which the first of them is the oldest entry. -/
structure Filled (remoteAddr : String) (l : IPRateLimiter Unit) : Prop where
  run : Run (fun l call => l.step lenient call) (fun l call => ¬l.Evicts call) hundred l
  limit : l.maxIPs = 100
  full : l.data.rows.length = 100
  swept : l.swept (3 * second) = l
  evicts : l.Evicts (oneMore l)
  listed : clientIP remoteAddr ∈ (oneMore l).order
  oldest : l.seen (clientIP remoteAddr) = second
  others : ∀ ip ∈ (oneMore l).order, ip ≠ clientIP remoteAddr → l.seen ip = 2 * second

theorem visitors_fill (hfirst : (clientIP remoteAddr).toList.head? ≠ some 'h')
    (hguest : clientIP remoteAddr ≠ "guest") : ∃ l, Filled remoteAddr l := by
  obtain ⟨l, hrun, htracks⟩ : ∃ l, Run (fun l call => l.step lenient call)
      (fun l call => ¬l.Evicts call) hundred l ∧ l.Tracks 100 0 (visitors remoteAddr) :=
    run_of_room lenient (visitors_nodup hfirst) (by simp [visitors]) fun call hcall => by
      rcases visitors_now hfirst hcall with ⟨-, hnow⟩ | ⟨-, hnow⟩ <;> rw [hnow] <;> decide
  have hswept : l.swept (oneMore l).now = l := by
    apply htracks.swept_eq
    change 3 * second ≤ 0 + minute
    decide
  have hseen : (l.data.get (clientIP remoteAddr)).map LimiterEntry.lastSeen = some second := by
    rw [htracks.lastSeen, visitors, List.find?_cons_of_pos (by simp [callAt, LimiterCall.ip])]
    rfl
  have hnew : l.data.get (oneMore l).ip = none := by
    have hip : clientIP "guest" = "guest" := clientIP_of_notMem (by decide)
    refine htracks.get_eq_none fun call hcall heq => ?_
    have hmem : clientIP "guest" ∈ (visitors remoteAddr).map LimiterCall.ip :=
      List.mem_map.mpr ⟨call, hcall, heq⟩
    rw [hip, visitors_ip, List.mem_cons] at hmem
    rcases hmem with heq | hmem
    · exact hguest heq.symm
    · exact notMem_hosts (by decide) hmem
  have hfull : l.data.rows.length = 100 := by
    rw [htracks.length]
    simp [visitors]
  refine ⟨l, hrun, htracks.limit, hfull, hswept, ⟨?_, ?_⟩, ?_, ?_, ?_⟩
  · rw [hswept]
    exact hnew
  · rw [hswept, htracks.limit, hfull]
    decide
  · obtain ⟨entry, hentry, -⟩ := Option.map_eq_some_iff.mp hseen
    exact List.mem_map.mpr ⟨(_, entry), Clustered.mem_rows.mpr hentry, rfl⟩
  · rw [seen, hseen, Option.getD_some]
  · intro ip hip hne
    obtain ⟨row, hrow, rfl⟩ := List.mem_map.mp hip
    obtain ⟨call, hcall, hip, hnow⟩ := htracks.exists_call hrow
    rw [hnow]
    exact ((visitors_now hfirst hcall).resolve_left fun h => hne (hip.symm.trans h.1)).2

/-- The next client makes the loop look for an entry to drop. -/
theorem Filled.step (h : Filled remoteAddr l) :
    l.step lenient (oneMore l) = some (l.allow lenient (oneMore l)).2 := by
  refine step_eq_some.mpr ⟨fun _ => ?_, rfl⟩
  change (oneMore l).order.Perm ((l.swept (3 * second)).data.rows.map Prod.fst)
  rw [h.swept]
  exact List.Perm.refl _

/-- It finds the first visitor. -/
theorem Filled.earliest (h : Filled remoteAddr l) :
    (l.swept (oneMore l).now).Earliest (oneMore l).order (clientIP remoteAddr) := by
  change (l.swept (3 * second)).Earliest (oneMore l).order (clientIP remoteAddr)
  rw [h.swept]
  refine ⟨h.listed, fun ip hip => ?_, fun ip hip hle => ?_⟩
  · by_cases hne : ip = clientIP remoteAddr
    · rw [hne]
    · rw [h.oldest, h.others ip hip hne]
      decide
  · by_cases hne : ip = clientIP remoteAddr
    · rw [hne]
    · rw [h.oldest, h.others ip hip hne] at hle
      exact absurd hle (by decide)

end Visitors

/-- The hundred and first client is taken in: the client that came first is the only one whose
entry is dropped. -/
theorem limiter_bounded_iff_full : ∃ l l',
    Run (fun l call => l.step lenient call) (fun l call => ¬l.Blind call) hundred l ∧
      l.data.rows.length = 100 ∧ l.step lenient (oneMore l) = some l' ∧
      l.Bounded (max 100 100) (oneMore l) l' ∧ l'.data.rows.length = 100 ∧
      (l.data.get "10.0.0.1").isSome ∧ l'.data.get "10.0.0.1" = none := by
  have hip : clientIP "10.0.0.1:443" = "10.0.0.1" := by decide
  obtain ⟨l, hfilled⟩ := @visitors_fill "10.0.0.1:443" (by rw [hip]; decide) (by rw [hip]; decide)
  have hlisted := hfilled.listed
  have hearliest := hfilled.earliest
  rw [hip] at hlisted hearliest
  have hsighted : ¬l.Blind (oneMore l) := by
    intro hblind
    have hempty := ((blind_iff hfilled.evicts).mp hblind).unique hearliest
    exact absurd hempty (by decide)
  have hrun : Run (fun l call => l.step lenient call) (fun l call => ¬l.Blind call) hundred l :=
    hfilled.run.mono fun _ _ hfree hblind => hfree hblind.evicts
  -- the first client's entry makes room for the new one
  obtain ⟨⟨_, entry⟩, hrow, rfl⟩ := List.mem_map.mp hlisted
  have hentry : l.data.get "10.0.0.1" = some entry := Clustered.mem_rows.mp hrow
  have hguest : (l.swept (3 * second)).data.get (oneMore l).ip = none := hfilled.evicts.1
  have hroom : (l.room (oneMore l)).data = (l.swept (3 * second)).data.erase "10.0.0.1" :=
    room_of_earliest hfilled.evicts hearliest (by decide)
  obtain ⟨lim, hallow⟩ := allow_eq l lenient (oneMore l)
  rw [hfilled.swept] at hguest hroom
  refine ⟨l, _, hrun, hfilled.full, hfilled.step,
    (limiter_bounded_iff hrun hfilled.step).mpr hsighted, ?_, by simp [hentry], ?_⟩
  · have hnew : (l.data.erase "10.0.0.1").get (oneMore l).ip = none := by
      rw [Clustered.get_erase, hguest, ite_self]
    have herase := Clustered.length_erase_of_some hentry
    rw [hallow, hroom, Clustered.length_put_of_none _ hnew]
    have hfull := hfilled.full
    omega
  · have hother : "10.0.0.1" ≠ (oneMore l).ip := by
      change "10.0.0.1" ≠ clientIP "guest"
      decide
    rw [hallow, hroom, Clustered.get_put, if_neg hother, Clustered.get_erase, if_pos rfl]

/-- The entry of the empty address is the oldest of the full table and is not dropped, so that
the table grows beyond its bound. -/
theorem empty_address_not_evicted : ∃ l l',
    Run (fun l call => l.step lenient call) anyStep hundred l ∧
      l.step lenient (oneMore l) = some l' ∧ 100 < l'.data.rows.length ∧
      ¬l.Bounded (max 100 100) (oneMore l) l' := by
  have hempty : clientIP ":443" = "" := clientIP_eq_empty.mpr (Or.inr ⟨_, rfl⟩)
  obtain ⟨l, hfilled⟩ := @visitors_fill ":443" (by rw [hempty]; decide) (by rw [hempty]; decide)
  have hearliest := hfilled.earliest
  rw [hempty] at hearliest
  have hgrown : l.maxIPs < (l.allow lenient (oneMore l)).2.data.rows.length :=
    length_of_blind ((blind_iff hfilled.evicts).mpr hearliest)
  rw [hfilled.limit] at hgrown
  refine ⟨l, _, hfilled.run.any, hfilled.step, by exact_mod_cast hgrown, ?_⟩
  intro hbounded
  exact absurd hgrown (not_lt.mpr hbounded.size)

end IPRateLimiter

end ControlPlane
