import S2nQuic.Lib.HashTable

/-!
# The path secret map (`path/secret/map/state.rs`, `cleaner.rs`)

`State` holds every entry by credential id (`ids`), the newest entry of each peer address
(`peers`), and a FIFO queue of weak references from which entries are evicted: when the queue
passes `max_capacity` on a new entry, and when the cleaner finds an entry retired long enough.
A handshake registers its entry (`on_new_path_secrets`) when the peer's stateless reset token
arrives and completes it (`on_handshake_complete`) when the dc handshake ends; completing it
replaces and retires the previous entry of the address.

An entry is read here by its credential id and its address; its `IsRetired` word is the
`retired` field of the state, `0` while it is not retired. `Weak::upgrade` succeeds while a map
or someone outside them holds a strong reference: the outside holders are a parameter of each
call. The calls are taken one after another, as the locks order them.

Over every run of registrations, completions and cleaner runs in the order `handshake.rs` makes
them (`allowed`), no call panics and `Inv` holds: the queue stays within `max_capacity`, every
id entry is in the queue, and a retired entry has left `peers`. So `ids` stays within
`max_capacity`, a cleaner run removes every entry retired long enough from all three places and
keeps the others, and `evict` only removes from `peers` the entry it was given. But `peers` is
not covered by the queue: an entry the queue pushes out between its registration and its
completion is inserted into `peers` afterwards and stays there.
-/

namespace S2nQuic.Dc.PathSecret

variable {Id Addr : Type}

/-- An `Entry` as the maps read it: its credential id and the address of its peer. -/
structure Entry (Id Addr : Type) where
  id : Id
  peer : Addr
  deriving DecidableEq

/-- The parts of `State` that the map's calls read and write. -/
structure State (Id Addr : Type) where
  maxCapacity : Nat
  peers : HashTable (Entry Id Addr) Addr Entry.peer
  ids : HashTable (Entry Id Addr) Id Entry.id
  evictionQueue : List (Entry Id Addr)
  /-- each entry's `IsRetired`: the epoch it was retired at, `0` while it is not -/
  retired : Entry Id Addr → Nat
  /-- the cleaner's `epoch` counter -/
  epoch : Nat

namespace State

/-- `State::new` with `capacity`: empty maps and queue, and `Cleaner::new`'s epoch `1`. -/
def new (capacity : Nat) : State Id Addr :=
  ⟨capacity, .empty, .empty, [], fun _ => 0, 1⟩

variable [DecidableEq Id] [DecidableEq Addr]

/-- `Entry::retired_at`: the epoch stored by `retire`, if it is not `0`. -/
def retiredAt (s : State Id Addr) (entry : Entry Id Addr) : Option Nat :=
  (some (s.retired entry)).filter (fun v => 0 < v)

/-- `Weak::upgrade`: the entry is alive while a map, or someone in `held`, holds it. -/
def upgrade (s : State Id Addr) (held : List (Entry Id Addr)) (entry : Entry Id Addr) : Bool :=
  decide (entry ∈ held ∨ entry ∈ s.ids.values ∨ entry ∈ s.peers.values)

/-- `State::evict`: drops the entry of `evicted`'s id from `ids`, and from `peers` the entry of
that id (`remove_exact` hashes by address but matches by id), and says which maps held one. -/
def evict (s : State Id Addr) (evicted : Entry Id Addr) : State Id Addr × Bool × Bool :=
  let ids := s.ids.remove (fun other => other.id = evicted.id)
  let peers := s.peers.remove (fun other => other.id = evicted.id)
  ({ s with ids := ids.1, peers := peers.1 }, ids.2.isSome, peers.2.isSome)

/-- `queue.pop_front().unwrap()`, then `evict` of the popped entry if it is still alive. -/
def evictOldest (s : State Id Addr) (held : List (Entry Id Addr)) : Option (State Id Addr) :=
  match s.evictionQueue with
  | [] => none
  | element :: queue =>
    let s := { s with evictionQueue := queue }
    if s.upgrade held element then some (s.evict element).1 else some s

/-- The queue half of `on_new_path_secrets`: push the entry and, past `max_capacity`, evict the
oldest one. -/
def enqueue (s : State Id Addr) (entry : Entry Id Addr) (held : List (Entry Id Addr)) :
    Option (State Id Addr) :=
  let s := { s with evictionQueue := s.evictionQueue ++ [entry] }
  if s.maxCapacity < s.evictionQueue.length then s.evictOldest held else some s

/-- `on_new_path_secrets`: insert into `ids`, where an entry of the same id panics, then queue
the entry. -/
def onNewPathSecrets (s : State Id Addr) (entry : Entry Id Addr) (held : List (Entry Id Addr)) :
    Option (State Id Addr) :=
  let ids := s.ids.insert entry
  -- `panic!("inserting a path secret ID twice")`
  if ids.2.isSome then none
  else { s with ids := ids.1 }.enqueue entry held

/-- `on_handshake_complete`: the entry becomes its address's entry in `peers`; the entry it
replaces is retired at the cleaner's current epoch, and one of the same id panics. -/
def onHandshakeComplete (s : State Id Addr) (entry : Entry Id Addr) : Option (State Id Addr) :=
  let peers := s.peers.insert entry
  match peers.2 with
  | some prev =>
    -- `assert_ne!(prev_id, id, "duplicate path secret id")`
    if prev.id = entry.id then none
    else some { s with peers := peers.1, retired := Function.update s.retired prev s.epoch }
  | none => some { s with peers := peers.1 }

/-- The `retained` test of `Cleaner::clean`: an entry that is not retired stays; a retired one
stays until `eviction_cycles` epochs have passed since its retirement. -/
def retained (s : State Id Addr) (evictionCycles currentEpoch : Nat) (entry : Entry Id Addr) :
    Bool :=
  match s.retiredAt entry with
  | some retiredAt => currentEpoch - retiredAt < evictionCycles
  | none => true

end State

open State

variable [DecidableEq Id] [DecidableEq Addr]

/-- The `queue.retain` closure of `Cleaner::clean`, from the front of the queue: an entry that
no longer upgrades is dropped, a retained one is kept, the others are evicted. -/
def retain (evictionCycles currentEpoch : Nat) (held : List (Entry Id Addr)) :
    State Id Addr → List (Entry Id Addr) → State Id Addr × List (Entry Id Addr)
  | s, [] => (s, [])
  | s, entry :: queue =>
    if !s.upgrade held entry then retain evictionCycles currentEpoch held s queue
    else if s.retained evictionCycles currentEpoch entry then
      let rest := retain evictionCycles currentEpoch held s queue
      (rest.1, entry :: rest.2)
    else retain evictionCycles currentEpoch held (s.evict entry).1 queue

/-- `Cleaner::clean` with `eviction_cycles`, as far as the maps and the queue go. -/
def State.clean (s : State Id Addr) (evictionCycles : Nat) (held : List (Entry Id Addr)) :
    State Id Addr :=
  -- `self.epoch.fetch_add(1)`
  let currentEpoch := s.epoch
  let kept := retain evictionCycles currentEpoch held { s with epoch := s.epoch + 1 }
    s.evictionQueue
  { kept.1 with evictionQueue := kept.2 }

/-- The calls on the map: a handshake registering its entry (`on_peer_stateless_reset_tokens`),
one completing (`on_dc_handshake_complete`), a cleaner run. `held` are the entries held
outside the maps while the call runs. -/
inductive Op (Id Addr : Type)
  | newPathSecrets (entry : Entry Id Addr) (held : List (Entry Id Addr))
  | handshakeComplete (entry : Entry Id Addr)
  | clean (evictionCycles : Nat) (held : List (Entry Id Addr))

def step (s : State Id Addr) : Op Id Addr → Option (State Id Addr)
  | .newPathSecrets entry held => s.onNewPathSecrets entry held
  | .handshakeComplete entry => s.onHandshakeComplete entry
  | .clean evictionCycles held => some (s.clean evictionCycles held)

def run (s : State Id Addr) : List (Op Id Addr) → Option (State Id Addr)
  | [] => some s
  | op :: ops => (step s op).bind fun s => run s ops

def Op.registered : Op Id Addr → List (Entry Id Addr)
  | .newPathSecrets entry _ => [entry]
  | _ => []

def Op.completed : Op Id Addr → List (Entry Id Addr)
  | .handshakeComplete entry => [entry]
  | _ => []

def registered (ops : List (Op Id Addr)) : List (Entry Id Addr) := ops.flatMap Op.registered

def completed (ops : List (Op Id Addr)) : List (Entry Id Addr) := ops.flatMap Op.completed

/-- The order of `handshake.rs`, for one call after the entries `reg` were registered and `done`
completed: an entry is registered under a credential id no earlier entry had, and completes
once, after its registration; the cleaner runs at any point. -/
def Op.allowed (reg done : List (Entry Id Addr)) : Op Id Addr → Bool
  | .newPathSecrets entry _ => decide (entry.id ∉ reg.map Entry.id)
  | .handshakeComplete entry => decide (entry ∈ reg ∧ entry ∉ done)
  | .clean _ _ => true

/-- Every call of a run in the order of `handshake.rs`. -/
def allowed (reg done : List (Entry Id Addr)) : List (Op Id Addr) → Bool
  | [] => true
  | op :: ops => op.allowed reg done && allowed (reg ++ op.registered) (done ++ op.completed) ops

namespace State

/-! ## What each call does -/

section Evict

omit [DecidableEq Addr]

variable (s : State Id Addr) (evicted : Entry Id Addr)

@[simp] theorem evict_maxCapacity : (s.evict evicted).1.maxCapacity = s.maxCapacity := rfl
@[simp] theorem evict_evictionQueue : (s.evict evicted).1.evictionQueue = s.evictionQueue := rfl
@[simp] theorem evict_retired : (s.evict evicted).1.retired = s.retired := rfl
@[simp] theorem evict_epoch : (s.evict evicted).1.epoch = s.epoch := rfl
@[simp] theorem retained_evict : (s.evict evicted).1.retained = s.retained := rfl

theorem mem_evict_ids {o : Entry Id Addr} :
    o ∈ (s.evict evicted).1.ids.values ↔ o ∈ s.ids.values ∧ o.id ≠ evicted.id := by
  constructor
  · intro h
    exact ⟨HashTable.mem_of_mem_remove h, fun hid => HashTable.not_mem_remove_key hid h⟩
  · rintro ⟨h, hid⟩
    exact HashTable.mem_remove_of_not (by simpa using hid) h

theorem mem_of_mem_evict_peers {o : Entry Id Addr} (h : o ∈ (s.evict evicted).1.peers.values) :
    o ∈ s.peers.values :=
  HashTable.mem_of_mem_remove h

theorem mem_evict_peers_of_id_ne {o : Entry Id Addr} (h : o ∈ s.peers.values)
    (hid : o.id ≠ evicted.id) : o ∈ (s.evict evicted).1.peers.values :=
  HashTable.mem_remove_of_not (by simpa using hid) h

end Evict

/-- What `evictOldest` does: it pops `element` off the queue, takes `element` out of `ids`, and
removes from the maps no entry of another id. -/
structure Pops (s s' : State Id Addr) (element : Entry Id Addr) : Prop where
  queue : s.evictionQueue = element :: s'.evictionQueue
  maxCapacity : s'.maxCapacity = s.maxCapacity
  retired : s'.retired = s.retired
  epoch : s'.epoch = s.epoch
  ids : ∀ o ∈ s'.ids.values, o ∈ s.ids.values ∧ o ≠ element
  peers : ∀ o ∈ s'.peers.values, o ∈ s.peers.values
  peers_keep : ∀ o ∈ s.peers.values, o.id ≠ element.id → o ∈ s'.peers.values

theorem evictOldest_pops {s s' : State Id Addr} {held : List (Entry Id Addr)}
    (h : s.evictOldest held = some s') : ∃ element, Pops s s' element := by
  unfold evictOldest at h
  split at h
  · cases h
  rename_i element queue hq
  refine ⟨element, ?_⟩
  dsimp only at h
  split_ifs at h with hup
  · -- still alive: `evict`
    cases h
    refine ⟨hq, rfl, rfl, rfl, fun o ho => ?_, fun o ho => mem_of_mem_evict_peers _ _ ho,
      fun o ho hid => mem_evict_peers_of_id_ne _ _ ho hid⟩
    obtain ⟨ho, hid⟩ := (mem_evict_ids _ _).mp ho
    exact ⟨ho, fun he => hid (he ▸ rfl)⟩
  · -- the upgrade failed, so no map held it
    cases h
    simp only [upgrade, decide_eq_true_eq, not_or] at hup
    exact ⟨hq, rfl, rfl, rfl, fun o ho => ⟨ho, fun he => hup.2.1 (he ▸ ho)⟩, fun _ ho => ho,
      fun _ ho _ => ho⟩

theorem evictOldest_of_ne_nil {s : State Id Addr} (held : List (Entry Id Addr))
    (h : s.evictionQueue ≠ []) : ∃ s', s.evictOldest held = some s' := by
  obtain ⟨element, queue, hq⟩ := List.exists_cons_of_ne_nil h
  unfold evictOldest
  rw [hq]
  dsimp only
  split_ifs
  · exact ⟨_, rfl⟩
  · exact ⟨_, rfl⟩

theorem onNewPathSecrets_cases {s s' : State Id Addr} {entry : Entry Id Addr}
    {held : List (Entry Id Addr)} (h : s.onNewPathSecrets entry held = some s') :
    (s.ids.insert entry).2 = none ∧
      ((s' = { s with ids := (s.ids.insert entry).1, evictionQueue := s.evictionQueue ++ [entry] } ∧
          s.evictionQueue.length + 1 ≤ s.maxCapacity) ∨
        (s.maxCapacity < s.evictionQueue.length + 1 ∧ ∃ element,
          Pops { s with ids := (s.ids.insert entry).1, evictionQueue := s.evictionQueue ++ [entry] }
            s' element)) := by
  unfold onNewPathSecrets at h
  dsimp only at h
  split_ifs at h with hsome
  refine ⟨Option.not_isSome_iff_eq_none.mp hsome, ?_⟩
  unfold enqueue at h
  dsimp only at h
  simp only [List.length_append, List.length_singleton] at h
  split_ifs at h with hover
  · exact .inr ⟨hover, evictOldest_pops h⟩
  · exact .inl ⟨(Option.some.inj h).symm, by omega⟩

theorem onNewPathSecrets_of_none {s : State Id Addr} {entry : Entry Id Addr}
    (held : List (Entry Id Addr)) (h : (s.ids.insert entry).2 = none) :
    ∃ s', s.onNewPathSecrets entry held = some s' := by
  unfold onNewPathSecrets enqueue
  dsimp only
  rw [if_neg (by simp [h])]
  split_ifs
  · exact evictOldest_of_ne_nil held (by simp)
  · exact ⟨_, rfl⟩

theorem onHandshakeComplete_cases {s s' : State Id Addr} {entry : Entry Id Addr}
    (h : s.onHandshakeComplete entry = some s') :
    s'.peers = (s.peers.insert entry).1 ∧ s'.ids = s.ids ∧ s'.evictionQueue = s.evictionQueue ∧
      s'.maxCapacity = s.maxCapacity ∧ s'.epoch = s.epoch ∧
      ((s.peers.insert entry).2 = none ∧ s'.retired = s.retired ∨
        ∃ prev, (s.peers.insert entry).2 = some prev ∧ prev.id ≠ entry.id ∧
          s'.retired = Function.update s.retired prev s.epoch) := by
  unfold onHandshakeComplete at h
  dsimp only at h
  split at h
  · rename_i prev hprev
    split_ifs at h with hid
    cases h
    exact ⟨rfl, rfl, rfl, rfl, rfl, .inr ⟨prev, hprev, hid, rfl⟩⟩
  · rename_i hnone
    cases h
    exact ⟨rfl, rfl, rfl, rfl, rfl, .inl ⟨hnone, rfl⟩⟩

end State

/-! ## The cleaner -/

section Retain

variable {evictionCycles currentEpoch : Nat} {held : List (Entry Id Addr)}

theorem retain_fst (s : State Id Addr) (queue : List (Entry Id Addr)) :
    ∃ ids peers, (retain evictionCycles currentEpoch held s queue).1 = { s with ids, peers } := by
  induction queue generalizing s with
  | nil => exact ⟨s.ids, s.peers, rfl⟩
  | cons entry queue ih =>
    simp only [retain]
    split_ifs
    · exact ih s
    · exact ih s
    · obtain ⟨ids, peers, h⟩ := ih (s.evict entry).1
      exact ⟨ids, peers, by rw [h]; rfl⟩

theorem retain_sublist (s : State Id Addr) (queue : List (Entry Id Addr)) :
    (retain evictionCycles currentEpoch held s queue).2.Sublist queue := by
  induction queue generalizing s with
  | nil => exact List.Sublist.slnil
  | cons entry queue ih =>
    simp only [retain]
    split_ifs
    · exact (ih s).cons entry
    · exact (ih s).cons_cons entry
    · exact (ih _).cons entry

theorem retain_maps (s : State Id Addr) (queue : List (Entry Id Addr)) {o : Entry Id Addr} :
    (o ∈ (retain evictionCycles currentEpoch held s queue).1.ids.values → o ∈ s.ids.values) ∧
      (o ∈ (retain evictionCycles currentEpoch held s queue).1.peers.values →
        o ∈ s.peers.values) := by
  induction queue generalizing s with
  | nil => exact ⟨id, id⟩
  | cons entry queue ih =>
    simp only [retain]
    split_ifs
    · exact ih s
    · exact ih s
    · obtain ⟨hids, hpeers⟩ := ih (s.evict entry).1
      exact ⟨fun h => (State.mem_evict_ids _ _).mp (hids h) |>.1,
        fun h => State.mem_of_mem_evict_peers _ _ (hpeers h)⟩

theorem retain_ids_kept (s : State Id Addr) {queue : List (Entry Id Addr)} {o : Entry Id Addr}
    (ho : o ∈ queue) (hids : o ∈ (retain evictionCycles currentEpoch held s queue).1.ids.values) :
    o ∈ (retain evictionCycles currentEpoch held s queue).2 := by
  induction queue generalizing s with
  | nil => cases ho
  | cons entry queue ih =>
    simp only [retain] at hids ⊢
    rcases List.mem_cons.mp ho with rfl | ho
    · split_ifs at hids ⊢ with hup hret
      · simp only [State.upgrade, Bool.not_eq_true', decide_eq_false_iff_not, not_or] at hup
        exact absurd ((retain_maps s queue).1 hids) hup.2.1
      · exact List.mem_cons_self
      · have := (retain_maps (s.evict o).1 queue).1 hids
        exact absurd rfl ((State.mem_evict_ids _ _).mp this).2
    · split_ifs at hids ⊢
      · exact ih s ho hids
      · exact List.mem_cons_of_mem _ (ih s ho hids)
      · exact ih _ ho hids

theorem retain_not_retained (s : State Id Addr) (queue : List (Entry Id Addr)) {o : Entry Id Addr}
    (ho : s.retained evictionCycles currentEpoch o = false) :
    o ∉ (retain evictionCycles currentEpoch held s queue).2 := by
  induction queue generalizing s with
  | nil => exact List.not_mem_nil
  | cons entry queue ih =>
    simp only [retain]
    split_ifs with hup hret
    · exact ih s ho
    · rintro (_ | ⟨_, h⟩)
      · rw [hret] at ho
        cases ho
      · exact ih s ho h
    · exact ih _ ho

theorem retain_keeps (s : State Id Addr) (queue : List (Entry Id Addr)) {o : Entry Id Addr}
    (h : ∀ x ∈ queue, x.id = o.id → s.retained evictionCycles currentEpoch x = true) :
    (o ∈ s.ids.values → o ∈ (retain evictionCycles currentEpoch held s queue).1.ids.values) ∧
      (o ∈ s.peers.values →
        o ∈ (retain evictionCycles currentEpoch held s queue).1.peers.values) := by
  induction queue generalizing s with
  | nil => exact ⟨id, id⟩
  | cons entry queue ih =>
    have hrest : ∀ x ∈ queue, x.id = o.id → s.retained evictionCycles currentEpoch x = true :=
      fun x hx => h x (List.mem_cons_of_mem _ hx)
    simp only [retain]
    split_ifs with hup hret
    · exact ih s hrest
    · exact ih s hrest
    · -- `entry` is evicted, so it has another id than `o`
      have hid : o.id ≠ entry.id := fun hid => hret (h entry List.mem_cons_self hid.symm)
      obtain ⟨hids, hpeers⟩ := ih (s.evict entry).1 (by simpa using hrest)
      exact ⟨fun ho => hids ((State.mem_evict_ids _ _).mpr ⟨ho, hid⟩),
        fun ho => hpeers (State.mem_evict_peers_of_id_ne _ _ ho hid)⟩

end Retain

namespace State

/-- What a cleaner run does: it advances the epoch, keeps a sublist of the queue, only removes
entries from the maps, keeps in the queue every entry left in `ids`, drops from it every entry
retired long enough, and keeps in the maps every entry whose id no evicted entry has. -/
structure Cleans (s s' : State Id Addr) (evictionCycles : Nat) : Prop where
  maxCapacity : s'.maxCapacity = s.maxCapacity
  retired : s'.retired = s.retired
  epoch : s'.epoch = s.epoch + 1
  queue : s'.evictionQueue.Sublist s.evictionQueue
  ids : ∀ o ∈ s'.ids.values, o ∈ s.ids.values
  peers : ∀ o ∈ s'.peers.values, o ∈ s.peers.values
  ids_queue : ∀ o ∈ s.evictionQueue, o ∈ s'.ids.values → o ∈ s'.evictionQueue
  not_retained : ∀ o, s.retained evictionCycles s.epoch o = false → o ∉ s'.evictionQueue
  keeps : ∀ o, (∀ x ∈ s.evictionQueue, x.id = o.id → s.retained evictionCycles s.epoch x = true) →
    (o ∈ s.ids.values → o ∈ s'.ids.values) ∧ (o ∈ s.peers.values → o ∈ s'.peers.values)

theorem clean_cleans (s : State Id Addr) (evictionCycles : Nat) (held : List (Entry Id Addr)) :
    Cleans s (s.clean evictionCycles held) evictionCycles := by
  obtain ⟨ids, peers, hfst⟩ : ∃ ids peers,
      (retain evictionCycles s.epoch held { s with epoch := s.epoch + 1 } s.evictionQueue).1 =
        { s with epoch := s.epoch + 1, ids, peers } := retain_fst _ _
  unfold State.clean
  dsimp only
  refine ⟨by rw [hfst], by rw [hfst], by rw [hfst], retain_sublist _ _, fun o ho => ?_,
    fun o ho => ?_, fun o ho hids => retain_ids_kept _ ho hids,
    fun o ho => retain_not_retained _ _ ho,
    fun o h => retain_keeps { s with epoch := s.epoch + 1 } s.evictionQueue h⟩
  · exact (retain_maps { s with epoch := s.epoch + 1 } s.evictionQueue).1 ho
  · exact (retain_maps { s with epoch := s.epoch + 1 } s.evictionQueue).2 ho

omit [DecidableEq Id] [DecidableEq Addr] in
theorem retained_eq (s : State Id Addr) (evictionCycles currentEpoch : Nat) (e : Entry Id Addr) :
    s.retained evictionCycles currentEpoch e =
      (s.retired e == 0 || decide (currentEpoch - s.retired e < evictionCycles)) := by
  unfold retained retiredAt
  by_cases h : s.retired e = 0
  · simp [h, Option.filter]
  · simp [h, Option.filter, Nat.pos_of_ne_zero h]

end State

/-! ## The invariant over allowed runs -/

/-- What every state reached by an allowed run keeps, over the entries registered (`reg`) and
completed (`done`) so far. -/
structure Inv (reg done : List (Entry Id Addr)) (s : State Id Addr) : Prop where
  fresh : (reg.map Entry.id).Nodup
  done_reg : ∀ e ∈ done, e ∈ reg
  epoch_pos : 0 < s.epoch
  queue_le : s.evictionQueue.length ≤ s.maxCapacity
  ids_queue : ∀ e ∈ s.ids.values, e ∈ s.evictionQueue
  queue_reg : ∀ e ∈ s.evictionQueue, e ∈ reg
  peers_done : ∀ e ∈ s.peers.values, e ∈ done
  retired_done : ∀ e, 0 < s.retired e → e ∈ done ∧ e ∉ s.peers.values

omit [DecidableEq Id] [DecidableEq Addr] in
theorem inv_new (capacity : Nat) : Inv [] [] (State.new capacity : State Id Addr) where
  fresh := List.nodup_nil
  done_reg _ h := h
  epoch_pos := Nat.one_pos
  queue_le := Nat.zero_le _
  ids_queue _ h := by simp [State.new] at h
  queue_reg _ h := h
  peers_done _ h := by simp [State.new] at h
  retired_done _ h := absurd h (Nat.lt_irrefl 0)

namespace Inv

variable {reg done : List (Entry Id Addr)} {s : State Id Addr}

omit [DecidableEq Id] [DecidableEq Addr] in
theorem eq_of_id_eq (hs : Inv reg done s) {a b : Entry Id Addr} (ha : a ∈ reg) (hb : b ∈ reg)
    (h : a.id = b.id) : a = b :=
  List.inj_on_of_nodup_map hs.fresh ha hb h

omit [DecidableEq Id] [DecidableEq Addr] in
theorem ids_reg (hs : Inv reg done s) {e : Entry Id Addr} (h : e ∈ s.ids.values) : e ∈ reg :=
  hs.queue_reg e (hs.ids_queue e h)

omit [DecidableEq Id] [DecidableEq Addr] in
theorem peers_reg (hs : Inv reg done s) {e : Entry Id Addr} (h : e ∈ s.peers.values) : e ∈ reg :=
  hs.done_reg e (hs.peers_done e h)

theorem newPathSecrets (hs : Inv reg done s) {entry : Entry Id Addr}
    (hfresh : entry.id ∉ reg.map Entry.id) (held : List (Entry Id Addr)) :
    ∃ s', s.onNewPathSecrets entry held = some s' ∧ Inv (reg ++ [entry]) done s' := by
  have hnone : (s.ids.insert entry).2 = none :=
    HashTable.insert_snd_eq_none.mpr fun b hb hid =>
      hfresh (hid ▸ List.mem_map_of_mem (hs.ids_reg hb))
  obtain ⟨s', hs'⟩ := State.onNewPathSecrets_of_none held hnone
  refine ⟨s', hs', ?_⟩
  have hfresh' : ((reg ++ [entry]).map Entry.id).Nodup := by
    rw [List.map_append, List.map_singleton, List.nodup_append]
    exact ⟨hs.fresh, List.nodup_singleton _, fun a ha b hb => by
      rw [List.mem_singleton] at hb
      rintro rfl
      exact hfresh (hb ▸ ha)⟩
  have hids : ∀ o ∈ (s.ids.insert entry).1.values, o ∈ s.evictionQueue ++ [entry] := by
    intro o ho
    rcases HashTable.mem_insert.mp ho with rfl | ⟨ho, -⟩
    · exact List.mem_append_right _ (List.mem_singleton_self _)
    · exact List.mem_append_left _ (hs.ids_queue o ho)
  have hqreg : ∀ o ∈ s.evictionQueue ++ [entry], o ∈ reg ++ [entry] := by
    intro o ho
    rcases List.mem_append.mp ho with ho | ho
    · exact List.mem_append_left _ (hs.queue_reg o ho)
    · exact List.mem_append_right _ ho
  have hdone : ∀ e ∈ done, e ∈ reg ++ [entry] := fun e he =>
    List.mem_append_left _ (hs.done_reg e he)
  rcases (State.onNewPathSecrets_cases hs').2 with ⟨rfl, hlen⟩ | ⟨-, element, hp⟩
  · exact ⟨hfresh', hdone, hs.epoch_pos, by simpa using hlen, hids, hqreg, hs.peers_done,
      hs.retired_done⟩
  · -- the oldest entry was popped: the queue is as long as before
    have hq : s.evictionQueue ++ [entry] = element :: s'.evictionQueue := hp.queue
    have hlen : s'.evictionQueue.length = s.evictionQueue.length := by
      have := congrArg List.length hq
      simp only [List.length_append, List.length_cons, List.length_nil] at this
      omega
    refine ⟨hfresh', hdone, hp.epoch ▸ hs.epoch_pos, ?_, fun o ho => ?_,
      fun o ho => hqreg o (hq ▸ List.mem_cons_of_mem _ ho),
      fun o ho => hs.peers_done o (hp.peers o ho), fun o ho => ?_⟩
    · rw [hlen, hp.maxCapacity]
      exact hs.queue_le
    · obtain ⟨ho, hne⟩ := hp.ids o ho
      have hmem := hids o ho
      rw [hq] at hmem
      exact (List.mem_cons.mp hmem).resolve_left hne
    · rw [hp.retired] at ho
      exact ⟨(hs.retired_done o ho).1, fun h => (hs.retired_done o ho).2 (hp.peers o h)⟩

theorem handshakeComplete (hs : Inv reg done s) {entry : Entry Id Addr} (hreg : entry ∈ reg)
    (hdone : entry ∉ done) :
    ∃ s', s.onHandshakeComplete entry = some s' ∧ Inv reg (done ++ [entry]) s' := by
  -- the entry it replaces completed before, so it is another entry, of another id
  have hprev : ∀ prev, (s.peers.insert entry).2 = some prev → prev.id ≠ entry.id := by
    intro prev hp hid
    have hmem := (HashTable.mem_of_insert_snd hp).1
    exact hdone (hs.eq_of_id_eq (hs.peers_reg hmem) hreg hid ▸ hs.peers_done prev hmem)
  obtain ⟨s', hs'⟩ : ∃ s', s.onHandshakeComplete entry = some s' := by
    unfold State.onHandshakeComplete
    dsimp only
    split
    · rename_i prev hp
      rw [if_neg (hprev prev hp)]
      exact ⟨_, rfl⟩
    · exact ⟨_, rfl⟩
  refine ⟨s', hs', ?_⟩
  obtain ⟨hpeers, hids, hqueue, hcap, hepoch, hret⟩ := State.onHandshakeComplete_cases hs'
  have hmem : ∀ o ∈ s'.peers.values, o = entry ∨ (o ∈ s.peers.values ∧ o.peer ≠ entry.peer) :=
    fun o ho => HashTable.mem_insert.mp (hpeers ▸ ho)
  have hold : ∀ o, 0 < s.retired o → o ∈ done ++ [entry] ∧ o ∉ s'.peers.values := by
    intro o ho
    obtain ⟨hod, hop⟩ := hs.retired_done o ho
    refine ⟨List.mem_append_left _ hod, fun h => ?_⟩
    rcases hmem o h with rfl | ⟨h, -⟩
    · exact hdone hod
    · exact hop h
  refine ⟨hs.fresh, fun e he => ?_, hepoch ▸ hs.epoch_pos, hqueue ▸ hcap ▸ hs.queue_le,
    fun o ho => hqueue ▸ hs.ids_queue o (hids ▸ ho), fun o ho => hs.queue_reg o (hqueue ▸ ho),
    fun o ho => ?_, fun o ho => ?_⟩
  · rcases List.mem_append.mp he with he | he
    · exact hs.done_reg e he
    · exact (List.mem_singleton.mp he) ▸ hreg
  · rcases hmem o ho with rfl | ⟨ho, -⟩
    · exact List.mem_append_right _ (List.mem_singleton_self _)
    · exact List.mem_append_left _ (hs.peers_done o ho)
  · rcases hret with ⟨-, hr⟩ | ⟨prev, hp, -, hr⟩
    · exact hold o (hr ▸ ho)
    · rw [hr, Function.update_apply] at ho
      split_ifs at ho with hop
      · -- the replaced entry: completed before, and its address now has `entry`
        subst hop
        obtain ⟨hmemp, hpeer⟩ := HashTable.mem_of_insert_snd hp
        refine ⟨List.mem_append_left _ (hs.peers_done o hmemp), fun h => ?_⟩
        rcases hmem o h with rfl | ⟨-, hne⟩
        · exact hdone (hs.peers_done _ hmemp)
        · exact hne hpeer
      · exact hold o ho

theorem clean (hs : Inv reg done s) (evictionCycles : Nat) (held : List (Entry Id Addr)) :
    Inv reg done (s.clean evictionCycles held) := by
  have hc := State.clean_cleans s evictionCycles held
  refine ⟨hs.fresh, hs.done_reg, by rw [hc.epoch]; omega, ?_,
    fun o ho => hc.ids_queue o (hs.ids_queue o (hc.ids o ho)) ho,
    fun o ho => hs.queue_reg o (hc.queue.subset ho), fun o ho => hs.peers_done o (hc.peers o ho),
    fun o ho => ?_⟩
  · rw [hc.maxCapacity]
    exact le_trans hc.queue.length_le hs.queue_le
  · rw [hc.retired] at ho
    exact ⟨(hs.retired_done o ho).1, fun h => (hs.retired_done o ho).2 (hc.peers o h)⟩

theorem step (hs : Inv reg done s) {op : Op Id Addr} (h : op.allowed reg done = true) :
    ∃ s', PathSecret.step s op = some s' ∧
      Inv (reg ++ op.registered) (done ++ op.completed) s' := by
  cases op with
  | newPathSecrets entry held =>
    simp only [Op.allowed, decide_eq_true_eq] at h
    simpa [PathSecret.step, Op.registered, Op.completed] using hs.newPathSecrets h held
  | handshakeComplete entry =>
    simp only [Op.allowed, decide_eq_true_eq] at h
    simpa [PathSecret.step, Op.registered, Op.completed] using hs.handshakeComplete h.1 h.2
  | clean evictionCycles held =>
    simpa [PathSecret.step, Op.registered, Op.completed] using hs.clean evictionCycles held

theorem run (hs : Inv reg done s) {ops : List (Op Id Addr)} (h : allowed reg done ops = true) :
    ∃ s', PathSecret.run s ops = some s' ∧
      Inv (reg ++ registered ops) (done ++ completed ops) s' := by
  induction ops generalizing reg done s with
  | nil => exact ⟨s, rfl, by simpa [registered, completed] using hs⟩
  | cons op ops ih =>
    simp only [allowed, Bool.and_eq_true] at h
    obtain ⟨s₁, hstep, hs₁⟩ := hs.step h.1
    obtain ⟨s₂, hrun, hs₂⟩ := ih hs₁ h.2
    refine ⟨s₂, by simp [PathSecret.run, hstep, hrun], ?_⟩
    simpa [registered, completed, List.append_assoc] using hs₂

end Inv

/-! ## Runs -/

namespace Inv

variable {reg done : List (Entry Id Addr)} {s : State Id Addr}

theorem run_induction {ops : List (Op Id Addr)}
    (P : List (Entry Id Addr) → List (Entry Id Addr) → State Id Addr → Prop)
    (hstep : ∀ {reg done : List (Entry Id Addr)} {s s' : State Id Addr} {op : Op Id Addr},
      op ∈ ops → Inv reg done s → op.allowed reg done = true → PathSecret.step s op = some s' →
      P reg done s → P (reg ++ op.registered) (done ++ op.completed) s')
    {s' : State Id Addr} (hs : Inv reg done s) (h : allowed reg done ops = true)
    (hP : P reg done s) (hrun : PathSecret.run s ops = some s') :
    P (reg ++ registered ops) (done ++ completed ops) s' := by
  induction ops generalizing reg done s with
  | nil =>
    cases hrun
    simpa [registered, completed] using hP
  | cons op ops ih =>
    simp only [allowed, Bool.and_eq_true] at h
    simp only [PathSecret.run, Option.bind_eq_some_iff] at hrun
    obtain ⟨s₁, hstep₁, hrun⟩ := hrun
    obtain ⟨s₁', hstep₁', hs₁⟩ := hs.step h.1
    rw [hstep₁'] at hstep₁
    cases hstep₁
    have hP₁ := hstep List.mem_cons_self hs h.1 hstep₁' hP
    have hrest := ih (fun hop => hstep (List.mem_cons_of_mem _ hop)) hs₁ h.2 hP₁ hrun
    simpa [registered, completed, List.append_assoc] using hrest

omit [DecidableEq Id] [DecidableEq Addr] in
theorem within_capacity (hs : Inv reg done s) :
    s.ids.values.length ≤ s.evictionQueue.length ∧ s.evictionQueue.length ≤ s.maxCapacity :=
  ⟨s.ids.length_le_of_subset hs.ids_queue, hs.queue_le⟩

theorem step_maxCapacity {s s' : State Id Addr} {op : Op Id Addr}
    (hstep : PathSecret.step s op = some s') : s'.maxCapacity = s.maxCapacity := by
  cases op with
  | newPathSecrets entry held =>
    rcases (State.onNewPathSecrets_cases hstep).2 with ⟨rfl, -⟩ | ⟨-, element, hpop⟩
    · rfl
    · exact hpop.maxCapacity
  | handshakeComplete entry => exact (State.onHandshakeComplete_cases hstep).2.2.2.1
  | clean evictionCycles held =>
    cases hstep
    exact (State.clean_cleans s evictionCycles held).maxCapacity

theorem step_retired (hs : Inv reg done s) {op : Op Id Addr} {s' : State Id Addr}
    (hstep : PathSecret.step s op = some s') {e : Entry Id Addr} (hr : 0 < s.retired e) :
    s'.retired e = s.retired e := by
  cases op with
  | newPathSecrets entry held =>
    rcases (State.onNewPathSecrets_cases hstep).2 with ⟨rfl, -⟩ | ⟨-, element, hpop⟩
    · rfl
    · rw [hpop.retired]
  | handshakeComplete entry =>
    rcases (State.onHandshakeComplete_cases hstep).2.2.2.2.2 with ⟨-, hret⟩ | ⟨prev, hp, -, hret⟩
    · rw [hret]
    · have hne : e ≠ prev := fun heq =>
        (hs.retired_done e hr).2 (heq ▸ (HashTable.mem_of_insert_snd hp).1)
      rw [hret, Function.update_of_ne hne]
  | clean evictionCycles held =>
    cases hstep
    rw [(State.clean_cleans s evictionCycles held).retired]

end Inv

/-! ## Retirement and eviction -/

namespace Inv

variable {reg done : List (Entry Id Addr)} {s : State Id Addr}

theorem handshakeComplete_replaces (hs : Inv reg done s) {entry prev : Entry Id Addr}
    (hreg : entry ∈ reg) (hdone : entry ∉ done) (hprev : prev ∈ s.peers.values)
    (hpeer : prev.peer = entry.peer) :
    ∃ s', s.onHandshakeComplete entry = some s' ∧ entry ∈ s'.peers.values ∧
      prev ∉ s'.peers.values ∧ s'.retired prev = s.epoch := by
  obtain ⟨s', hs', -⟩ := hs.handshakeComplete hreg hdone
  obtain ⟨hpeers, -, -, -, -, hret⟩ := State.onHandshakeComplete_cases hs'
  refine ⟨s', hs', by rw [hpeers]; exact HashTable.mem_insert.mpr (.inl rfl), fun h => ?_, ?_⟩
  · rw [hpeers] at h
    rcases HashTable.mem_insert.mp h with rfl | ⟨-, hne⟩
    · exact hdone (hs.peers_done _ hprev)
    · exact hne hpeer
  · rcases hret with ⟨hnone, -⟩ | ⟨prev', hp, -, hr⟩
    · exact absurd hpeer (HashTable.insert_snd_eq_none.mp hnone prev hprev)
    · -- the entry handed back is the one entry of the address
      obtain ⟨hmem, hpeer'⟩ := HashTable.mem_of_insert_snd hp
      have hsame : prev' = prev := s.peers.key_injOn hmem hprev (hpeer'.trans hpeer.symm)
      rw [hr, hsame, Function.update_self]

theorem clean_removes_retired (hs : Inv reg done s) {e : Entry Id Addr} (hr : 0 < s.retired e)
    {evictionCycles : Nat} (hk : evictionCycles ≤ s.epoch - s.retired e)
    (held : List (Entry Id Addr)) :
    e ∉ (s.clean evictionCycles held).ids.values ∧ e ∉ (s.clean evictionCycles held).peers.values ∧
      e ∉ (s.clean evictionCycles held).evictionQueue := by
  have hc := State.clean_cleans s evictionCycles held
  have hret : s.retained evictionCycles s.epoch e = false := by
    rw [State.retained_eq]
    simp [Nat.pos_iff_ne_zero.mp hr, hk]
  have hq := hc.not_retained e hret
  exact ⟨fun h => hq (hc.ids_queue e (hs.ids_queue e (hc.ids e h)) h),
    fun h => (hs.retired_done e hr).2 (hc.peers e h), hq⟩

theorem clean_keeps (hs : Inv reg done s) {o : Entry Id Addr} (ho : s.retired o = 0)
    (evictionCycles : Nat) (held : List (Entry Id Addr)) :
    (o ∈ s.ids.values → o ∈ (s.clean evictionCycles held).ids.values) ∧
      (o ∈ s.peers.values → o ∈ (s.clean evictionCycles held).peers.values) := by
  have hc := State.clean_cleans s evictionCycles held
  have hkeep (hreg : o ∈ reg) :
      ∀ x ∈ s.evictionQueue, x.id = o.id → s.retained evictionCycles s.epoch x = true := by
    intro x hx hid
    rw [hs.eq_of_id_eq (hs.queue_reg x hx) hreg hid, State.retained_eq, ho]
    rfl
  exact ⟨fun h => (hc.keeps o (hkeep (hs.ids_reg h))).1 h,
    fun h => (hc.keeps o (hkeep (hs.peers_reg h))).2 h⟩

theorem run_retired (hs : Inv reg done s) {e : Entry Id Addr} (hr : 0 < s.retired e)
    {ops : List (Op Id Addr)} (h : allowed reg done ops = true) {s' : State Id Addr}
    (hrun : PathSecret.run s ops = some s') : s'.retired e = s.retired e :=
  run_induction (fun _ _ t => t.retired e = s.retired e)
    (fun _ ht _ hstep hP => (ht.step_retired hstep (hP ▸ hr)).trans hP) hs h rfl hrun

theorem run_clean_removes_retired (hs : Inv reg done s) {e : Entry Id Addr}
    (hr : 0 < s.retired e) {ops : List (Op Id Addr)} (h : allowed reg done ops = true)
    {s' : State Id Addr} (hrun : PathSecret.run s ops = some s') {evictionCycles : Nat}
    (hk : evictionCycles ≤ s'.epoch - s.retired e) (held : List (Entry Id Addr)) :
    e ∉ (s'.clean evictionCycles held).ids.values ∧
      e ∉ (s'.clean evictionCycles held).peers.values ∧
      e ∉ (s'.clean evictionCycles held).evictionQueue := by
  obtain ⟨s'', hrun', hs'⟩ := hs.run h
  rw [hrun] at hrun'
  cases hrun'
  have hret := hs.run_retired hr h hrun
  exact hs'.clean_removes_retired (hret ▸ hr) (hret ▸ hk) held

omit [DecidableEq Addr] in
theorem mem_evict_peers (hs : Inv reg done s) {evicted o : Entry Id Addr} (he : evicted ∈ reg)
    (ho : o ∈ s.peers.values) (hne : o ≠ evicted) : o ∈ (s.evict evicted).1.peers.values :=
  State.mem_evict_peers_of_id_ne s evicted ho fun hid =>
    hne (hs.eq_of_id_eq (hs.peers_reg ho) he hid)

end Inv

/-- From `State::new`, every run of calls in the order `handshake.rs` makes them succeeds, and
after it `ids` and the queue stay within `capacity`. A completion for an address that holds an
entry puts the new entry in `peers` and retires the old one at the current epoch; a cleaner run,
now or after any further allowed run, removes an entry retired at least `eviction_cycles` epochs
before from `ids`, `peers` and the queue, and keeps every entry that is not retired; and `evict`
of a registered entry removes no other entry from `peers`. -/
theorem path_secret_map_run (capacity : Nat) (ops : List (Op Id Addr))
    (hops : allowed [] [] ops = true) :
    ∃ s, run (State.new capacity) ops = some s ∧
      s.ids.values.length ≤ capacity ∧ s.evictionQueue.length ≤ capacity ∧
      (∀ entry prev, entry ∈ registered ops → entry ∉ completed ops → prev ∈ s.peers.values →
        prev.peer = entry.peer → ∃ s', s.onHandshakeComplete entry = some s' ∧
          entry ∈ s'.peers.values ∧ prev ∉ s'.peers.values ∧ s'.retired prev = s.epoch) ∧
      (∀ e rest s', 0 < s.retired e →
        allowed (registered ops) (completed ops) rest = true → run s rest = some s' →
        ∀ evictionCycles, evictionCycles ≤ s'.epoch - s.retired e → ∀ held,
          e ∉ (s'.clean evictionCycles held).ids.values ∧
          e ∉ (s'.clean evictionCycles held).peers.values ∧
          e ∉ (s'.clean evictionCycles held).evictionQueue) ∧
      (∀ o evictionCycles held, s.retired o = 0 →
        (o ∈ s.ids.values → o ∈ (s.clean evictionCycles held).ids.values) ∧
        (o ∈ s.peers.values → o ∈ (s.clean evictionCycles held).peers.values)) ∧
      ∀ evicted o, evicted ∈ registered ops → o ∈ s.peers.values → o ≠ evicted →
        o ∈ (s.evict evicted).1.peers.values := by
  obtain ⟨s, hrun, hs⟩ := (inv_new capacity).run hops
  simp only [List.nil_append] at hs
  have hcap : s.maxCapacity = capacity :=
    Inv.run_induction (fun _ _ t => t.maxCapacity = capacity)
      (fun _ _ _ hstep hP => (Inv.step_maxCapacity hstep).trans hP) (inv_new capacity) hops rfl
      hrun
  obtain ⟨hids, hqueue⟩ := hs.within_capacity
  rw [hcap] at hqueue
  exact ⟨s, hrun, hids.trans hqueue, hqueue,
    fun _ _ hreg hdone hprev hpeer => hs.handshakeComplete_replaces hreg hdone hprev hpeer,
    fun _ _ _ hr hrest hrun' _ hk held => hs.run_clean_removes_retired hr hrest hrun' hk held,
    fun _ k held ho => hs.clean_keeps ho k held,
    fun _ _ he ho hne => hs.mem_evict_peers he ho hne⟩

theorem path_secret_map_run_replaced :
    ∃ s, run (State.new 1 : State Nat Nat) [.newPathSecrets ⟨1, 7⟩ [], .handshakeComplete ⟨1, 7⟩,
      .newPathSecrets ⟨2, 7⟩ [], .handshakeComplete ⟨2, 7⟩] = some s ∧
      s.evictionQueue.length ≤ 1 := by
  obtain ⟨s, hrun, -, hqueue, -⟩ := path_secret_map_run 1 [.newPathSecrets (⟨1, 7⟩ : Entry Nat Nat) [],
    .handshakeComplete ⟨1, 7⟩, .newPathSecrets ⟨2, 7⟩ [], .handshakeComplete ⟨2, 7⟩] (by decide)
  exact ⟨s, hrun, hqueue⟩

/-! ## Entries the queue lost -/

/-- An entry in `peers` that is in neither `ids` nor the queue: the FIFO and the cleaner only
evict entries they find in the queue, so neither of them reaches it. -/
def State.orphaned (s : State Id Addr) (entry : Entry Id Addr) : Prop :=
  entry ∈ s.peers.values ∧ entry ∉ s.ids.values ∧ entry ∉ s.evictionQueue

namespace Inv

variable {reg done : List (Entry Id Addr)} {s : State Id Addr}

theorem step_orphaned (hs : Inv reg done s) {op : Op Id Addr} (h : op.allowed reg done = true)
    {e : Entry Id Addr} (hpeer : ∀ other ∈ op.completed, other.peer ≠ e.peer) (he : e ∈ reg)
    (ho : s.orphaned e) {s' : State Id Addr} (hstep : PathSecret.step s op = some s') :
    s'.orphaned e := by
  obtain ⟨hp, hi, hq⟩ := ho
  cases op with
  | newPathSecrets entry held =>
    simp only [Op.allowed, decide_eq_true_eq] at h
    have hne : e.id ≠ entry.id := fun hid => h (hid ▸ List.mem_map_of_mem he)
    have hi₁ : e ∉ (s.ids.insert entry).1.values := by
      rw [HashTable.mem_insert]
      rintro (rfl | ⟨hi', -⟩)
      · exact hne rfl
      · exact hi hi'
    have hq₁ : e ∉ s.evictionQueue ++ [entry] := by
      rw [List.mem_append, List.mem_singleton]
      rintro (hq' | rfl)
      · exact hq hq'
      · exact hne rfl
    rcases (State.onNewPathSecrets_cases hstep).2 with ⟨rfl, -⟩ | ⟨-, element, hpop⟩
    · exact ⟨hp, hi₁, hq₁⟩
    have hqe : s.evictionQueue ++ [entry] = element :: s'.evictionQueue := hpop.queue
    have hid : e.id ≠ element.id := by
      intro hid
      have helement : element ∈ s.evictionQueue ++ [entry] := by
        rw [hqe]
        exact List.mem_cons_self
      rcases List.mem_append.mp helement with hel | hel
      · exact hq (hs.eq_of_id_eq (hs.queue_reg _ hel) he hid.symm ▸ hel)
      · rw [List.mem_singleton] at hel
        exact hne (hel ▸ hid)
    refine ⟨hpop.peers_keep e hp hid, fun h' => hi₁ (hpop.ids e h').1, fun h' => hq₁ ?_⟩
    rw [hqe]
    exact List.mem_cons_of_mem _ h'
  | handshakeComplete entry =>
    have hpeer' : e.peer ≠ entry.peer := (hpeer entry (List.mem_singleton_self _)).symm
    obtain ⟨hpeers, hids, hqueue, -⟩ := State.onHandshakeComplete_cases hstep
    refine ⟨?_, hids ▸ hi, hqueue ▸ hq⟩
    rw [hpeers]
    exact HashTable.mem_insert.mpr (.inr ⟨hp, hpeer'⟩)
  | clean evictionCycles held =>
    cases hstep
    have hc := State.clean_cleans s evictionCycles held
    have hkeep := hc.keeps e fun x hx hid =>
      absurd (hs.eq_of_id_eq (hs.queue_reg x hx) he hid ▸ hx) hq
    exact ⟨hkeep.2 hp, fun h' => hi (hc.ids e h'), fun h' => hq (hc.queue.subset h')⟩

theorem run_orphaned (hs : Inv reg done s) {ops : List (Op Id Addr)}
    (h : allowed reg done ops = true) {e : Entry Id Addr}
    (hpeer : ∀ other ∈ completed ops, other.peer ≠ e.peer) (he : e ∈ reg) (ho : s.orphaned e)
    {s' : State Id Addr} (hrun : PathSecret.run s ops = some s') : s'.orphaned e :=
  (run_induction (fun reg _ t => e ∈ reg ∧ t.orphaned e)
    (fun hop ht hallowed hstep hP =>
      ⟨List.mem_append_left _ hP.1, ht.step_orphaned hallowed
        (fun other hother => hpeer other (List.mem_flatMap.mpr ⟨_, hop, hother⟩)) hP.1 hP.2 hstep⟩)
    hs h ⟨he, ho⟩ hrun).2

end Inv

/-- An entry that the queue pushes out between its registration and its completion is still put
into `peers` when its handshake completes, where it is in neither `ids` nor the queue; from then
on no registration and no cleaner run removes it, only a completion for the same address. -/
theorem handshakeComplete_after_eviction_orphaned {capacity : Nat} {ops : List (Op Id Addr)}
    {s : State Id Addr} (hops : allowed [] [] ops = true)
    (hrun : run (State.new capacity) ops = some s) {entry : Entry Id Addr}
    (hreg : entry ∈ registered ops) (hdone : entry ∉ completed ops)
    (hq : entry ∉ s.evictionQueue) :
    ∃ s', s.onHandshakeComplete entry = some s' ∧ s'.orphaned entry ∧
      ∀ rest s'', allowed (registered ops) (completed ops ++ [entry]) rest = true →
        (∀ other ∈ completed rest, other.peer ≠ entry.peer) → run s' rest = some s'' →
        s''.orphaned entry := by
  obtain ⟨s₀, hrun₀, hs⟩ := (inv_new capacity).run hops
  rw [hrun] at hrun₀
  cases hrun₀
  simp only [List.nil_append] at hs
  obtain ⟨s', hs', hinv'⟩ := hs.handshakeComplete hreg hdone
  obtain ⟨hpeers, hids, hqueue, -⟩ := State.onHandshakeComplete_cases hs'
  have horphan : s'.orphaned entry := by
    refine ⟨?_, fun h => hq (hs.ids_queue entry (hids ▸ h)), hqueue ▸ hq⟩
    rw [hpeers]
    exact HashTable.mem_insert.mpr (.inl rfl)
  exact ⟨s', hs', horphan, fun rest s'' hrest hpeer hrun' =>
    hinv'.run_orphaned hrest hpeer hreg horphan hrun'⟩

theorem handshakeComplete_after_eviction_orphaned_one :
    ∃ s : State Nat Nat,
      run (State.new 1) [.newPathSecrets ⟨0, 0⟩ [], .newPathSecrets ⟨1, 1⟩ []] = some s ∧
        ⟨0, 0⟩ ∉ s.evictionQueue ∧ ∃ s', s.onHandshakeComplete ⟨0, 0⟩ = some s' ∧
          s'.orphaned ⟨0, 0⟩ := by
  have hsome : (run (State.new 1)
      [(.newPathSecrets ⟨0, 0⟩ [] : Op Nat Nat), .newPathSecrets ⟨1, 1⟩ []]).isSome = true := by
    decide
  have hrun := (Option.some_get hsome).symm
  have hq : (⟨0, 0⟩ : Entry Nat Nat) ∉ (Option.get (run (State.new 1)
      [(.newPathSecrets ⟨0, 0⟩ [] : Op Nat Nat), .newPathSecrets ⟨1, 1⟩ []])
        (by decide)).evictionQueue := by
    decide
  obtain ⟨s', hs', horphan, -⟩ :=
    handshakeComplete_after_eviction_orphaned (by decide) hrun (by decide) (by decide) hq
  exact ⟨_, hrun, hq, s', hs', horphan⟩

/-- Completing both handshakes then leaves two entries in `peers` under `max_capacity` 1. -/
example : (run (State.new 1) [(.newPathSecrets ⟨0, 0⟩ [] : Op Nat Nat), .newPathSecrets ⟨1, 1⟩ [],
    .handshakeComplete ⟨0, 0⟩, .handshakeComplete ⟨1, 1⟩]).map (fun s => s.peers.values.length) =
      some 2 := by
  decide

end S2nQuic.Dc.PathSecret
