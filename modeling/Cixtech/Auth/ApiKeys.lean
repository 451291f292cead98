import Cixtech.Foundation.Table
import Mathlib.Data.List.Induction
import Mathlib.Logic.Function.Basic

/-! The API keys of tenants. A key is stored by its hash and is revoked rather than deleted; a
rotation reads the live keys of a tenant, and in one transaction issues another and revokes those it
has read. Keys are issued and revoked meanwhile.
-/

namespace Cixtech.Auth

open Cixtech.Foundation

inductive Scope
  | read
  | moveFunds
  | approve
  deriving DecidableEq, Repr

def SCOPES : List Scope := [.read, .moveFunds, .approve]

/-- A row of `tenant`. -/
structure TenantRow where
  id : String
  name : String
  deriving DecidableEq, Repr

/-- A row of `api_key`. -/
structure ApiKeyRow where
  keyHash : String
  tenantId : String
  id : String
  label : Option String
  scopes : List Scope
  createdAt : Int
  revokedAt : Option Int
  revokedReason : Option String
  deriving DecidableEq, Repr

/-- The row is what became of another one: only its revocation may differ. -/
structure ApiKeyRow.Became (row now : ApiKeyRow) : Prop where
  keyHash : now.keyHash = row.keyHash
  tenantId : now.tenantId = row.tenantId
  id : now.id = row.id
  scopes : now.scopes = row.scopes

/-- The `Tenant` that a request is made as. -/
structure Tenant where
  id : String
  name : String
  keyId : String
  scopes : List Scope
  deriving DecidableEq, Repr

inductive KeyError
  | unauthorized (message : String)
  | accountNotFound (message : String)
  deriving DecidableEq, Repr

/-- The random key and id that an issuing draws. -/
structure DrawnKey where
  apiKey : String
  keyId : String
  deriving DecidableEq, Repr

/-- A rotation between its read and its end: the tenant and the ids of the keys it has read. -/
structure Rotation where
  tenantId : String
  liveIds : List String
  deriving DecidableEq, Repr

structure KeyStore where
  tenants : List TenantRow
  keys : List ApiKeyRow
  rotations : Nat → Option Rotation

namespace KeyStore

-----------------------------------------------------------------------------
-- The statements

def tenantExists (store : KeyStore) (tenantId : String) : Bool :=
  (Table.lookup TenantRow.id store.tenants tenantId).isSome

/-- `apiKey.insert`: the hash and the id are unique, and the tenant is one that exists. -/
def insert (store : KeyStore) (row : ApiKeyRow) : Option KeyStore :=
  if store.tenantExists row.tenantId ∧ row.keyHash ∉ store.keys.map ApiKeyRow.keyHash
      ∧ row.id ∉ store.keys.map ApiKeyRow.id then
    some { store with keys := store.keys ++ [row] }
  else none

/-- `apiKey.liveIdsFor` -/
def liveIdsFor (store : KeyStore) (tenantId : String) : List String :=
  (store.keys.filter fun row => row.tenantId = tenantId ∧ row.revokedAt = none).map ApiKeyRow.id

/-- `SET revoked_at, revoked_reason … WHERE … AND revoked_at IS NULL` -/
def revokeWhere (store : KeyStore) (chosen : ApiKeyRow → Bool) (reason : String) (now : Int)
    : KeyStore :=
  { store with
      keys :=
        store.keys.map fun row =>
          if chosen row ∧ row.revokedAt = none then
            { row with revokedAt := some now, revokedReason := some reason }
          else row }

-----------------------------------------------------------------------------
-- TenantStore

section Store

variable (hashKey : String → String)

def authenticate (store : KeyStore) (apiKey : Option String) : Except KeyError Tenant :=
  match apiKey with
  | none => .error (.unauthorized "Missing API key")
  | some apiKey =>
      if apiKey = "" then .error (.unauthorized "Missing API key")
      else
        let live :=
          store.keys.find? fun row => row.keyHash = hashKey apiKey ∧ row.revokedAt = none
        match live with
        | none => .error (.unauthorized "Invalid API key")
        | some row =>
            match Table.lookup TenantRow.id store.tenants row.tenantId with
            | none => .error (.unauthorized "Invalid API key")
            | some tenant =>
                .ok { id := tenant.id, name := tenant.name, keyId := row.id, scopes := row.scopes }

/-- A key as it is inserted. -/
def issued (tenantId : String) (scopes : List Scope) (label : Option String) (drawn : DrawnKey)
    (now : Int)
    : ApiKeyRow where
  keyHash := hashKey drawn.apiKey
  tenantId
  id := drawn.keyId
  label
  scopes
  createdAt := now
  revokedAt := none
  revokedReason := none

end Store

/-- What is done with the keys. A rotation reads and ends in two events, between which others may
come.
-/
inductive Event
  | createTenant (id name : String) (scopes : List Scope) (drawn : DrawnKey) (now : Int)
  | issueKey (tenantId : String) (scopes : List Scope) (label : Option String)
    (drawn : DrawnKey) (now : Int)
  | rotationReads (rotation : Nat) (tenantId : String)
  | rotationCommits (rotation : Nat) (scopes : Option (List Scope)) (label reason : Option String)
    (drawn : DrawnKey) (now : Int)
  | rotationFails (rotation : Nat)
  | revokeKey (tenantId keyId : String) (reason : Option String) (now : Int)
  deriving DecidableEq, Repr

variable (hashKey : String → String)

/-- The key that an event issues, and the store with it, unless it is refused. -/
def issues (store : KeyStore) : Event → Option (ApiKeyRow × KeyStore)
  | .createTenant id name scopes drawn now =>
      -- Both rows or none: the operator's route creates a tenant in a transaction.
      if store.tenantExists id then none
      else
        let row := issued hashKey id scopes none drawn now
        ({ store with tenants := store.tenants ++ [TenantRow.mk id name] }.insert row).map (row, ·)
  | .issueKey tenantId scopes label drawn now =>
      let row := issued hashKey tenantId scopes label drawn now
      if store.tenantExists tenantId then (store.insert row).map (row, ·) else none
  | .rotationCommits rotation scopes label _ drawn now =>
      match store.rotations rotation with
      | none => none
      | some read =>
          let row :=
            issued hashKey read.tenantId (scopes.getD SCOPES) (some (label.getD "rotated")) drawn
              now
          (store.insert row).map (row, ·)
  | _ => none

def step (store : KeyStore) (event : Event) : KeyStore :=
  match event with
  | .createTenant .. | .issueKey .. => ((store.issues hashKey event).map Prod.snd).getD store
  | .rotationReads rotation tenantId =>
      let read := { tenantId, liveIds := store.liveIdsFor tenantId }
      { store with
          rotations :=
            Function.update store.rotations rotation
              (if store.tenantExists tenantId then some read else none) }
  | .rotationCommits rotation _ _ reason _ now =>
      let ended (store : KeyStore) : KeyStore :=
        { store with rotations := Function.update store.rotations rotation none }
      match store.rotations rotation, store.issues hashKey event with
      | some read, some (_, inserted) =>
          ended
            (inserted.revokeWhere (fun row => row.id ∈ read.liveIds) (reason.getD "rotated") now)
      | _, _ => ended store
  | .rotationFails rotation =>
      { store with rotations := Function.update store.rotations rotation none }
  | .revokeKey tenantId keyId reason now =>
      store.revokeWhere (fun row => row.tenantId = tenantId ∧ row.id = keyId)
        (reason.getD "revoked") now

def run (store : KeyStore) (events : List Event) : KeyStore := events.foldl (step hashKey) store

/-- No tenants yet. -/
def empty : KeyStore where
  tenants := []
  keys := []
  rotations := fun _ => none

-----------------------------------------------------------------------------
-- What holds of every store that a history leads to

/-- The keys are told apart by hash and by id, their tenants exist, and a rotation has read keys. -/
structure Sound (store : KeyStore) : Prop where
  hashes : (store.keys.map ApiKeyRow.keyHash).Nodup
  ids : (store.keys.map ApiKeyRow.id).Nodup
  owned : ∀ row ∈ store.keys, store.tenantExists row.tenantId = true
  read
    : ∀ rotation read, store.rotations rotation = some read
      → ∀ id ∈ read.liveIds, id ∈ store.keys.map ApiKeyRow.id

theorem sound_empty : Sound empty :=
  ⟨List.nodup_nil, List.nodup_nil, fun _ member => absurd member List.not_mem_nil, nofun⟩

/-- An insert adds a row whose hash and id are new, of a tenant that exists. -/
theorem insert_some {store after : KeyStore} {row : ApiKeyRow}
    (inserted : store.insert row = some after)
    : after = { store with keys := store.keys ++ [row] }
      ∧ store.tenantExists row.tenantId = true
      ∧ row.keyHash ∉ store.keys.map ApiKeyRow.keyHash
      ∧ row.id ∉ store.keys.map ApiKeyRow.id := by
  unfold insert at inserted
  split at inserted
  · next allowed => exact ⟨(Option.some.inj inserted).symm, allowed⟩
  · cases inserted

theorem Sound.insert {store after : KeyStore} {row : ApiKeyRow} (sound : store.Sound)
    (inserted : store.insert row = some after)
    : after.Sound := by
  obtain ⟨rfl, tenantExists, newHash, newId⟩ := insert_some inserted
  have extended {κ : Type} {column : ApiKeyRow → κ} (distinct : (store.keys.map column).Nodup)
      (fresh : column row ∉ store.keys.map column)
      : ((store.keys ++ [row]).map column).Nodup := by
    rw [List.map_append, List.map_cons, List.map_nil]
    exact distinct.append (by simp) (by simpa using fresh)
  refine ⟨extended sound.hashes newHash, extended sound.ids newId, ?_, ?_⟩
  · intro other member
    rcases List.mem_append.mp member with old | new
    · exact sound.owned other old
    · rw [List.mem_singleton.mp new]
      exact tenantExists
  · intro rotation read reading id member
    rw [List.map_append]
    exact List.mem_append_left _ (sound.read rotation read reading id member)

/-- A revocation changes no other column. -/
theorem map_revokeWhere {κ : Type} (store : KeyStore) (column : ApiKeyRow → κ)
    (kept
      : ∀ (row : ApiKeyRow) (moment : Option Int) (reason : Option String),
        column { row with revokedAt := moment, revokedReason := reason } = column row)
    (chosen : ApiKeyRow → Bool) (reason : String) (now : Int)
    : (store.revokeWhere chosen reason now).keys.map column = store.keys.map column := by
  simp only [revokeWhere, List.map_map]
  refine List.map_congr_left fun row _ => ?_
  simp only [Function.comp_apply]
  split
  · exact kept row _ _
  · rfl

theorem Sound.revokeWhere {store : KeyStore} (sound : store.Sound) (chosen : ApiKeyRow → Bool)
    (reason : String) (now : Int)
    : (store.revokeWhere chosen reason now).Sound := by
  have hashes := store.map_revokeWhere ApiKeyRow.keyHash (fun _ _ _ => rfl) chosen reason now
  have ids := store.map_revokeWhere ApiKeyRow.id (fun _ _ _ => rfl) chosen reason now
  have tenants := store.map_revokeWhere ApiKeyRow.tenantId (fun _ _ _ => rfl) chosen reason now
  refine ⟨by rw [hashes]; exact sound.hashes, by rw [ids]; exact sound.ids, ?_, ?_⟩
  · intro row member
    have owner := List.mem_map_of_mem (f := ApiKeyRow.tenantId) member
    rw [tenants] at owner
    obtain ⟨other, old, same⟩ := List.mem_map.mp owner
    rw [← same]
    exact sound.owned other old
  · rw [ids]
    exact sound.read

theorem Sound.rotations {store : KeyStore} (sound : store.Sound)
    (rotations : Nat → Option Rotation)
    (read
      : ∀ rotation read, rotations rotation = some read
        → ∀ id ∈ read.liveIds, id ∈ store.keys.map ApiKeyRow.id)
    : Sound { store with rotations } :=
  ⟨sound.hashes, sound.ids, sound.owned, read⟩

/-- A rotation ends. -/
theorem Sound.ended {store : KeyStore} (sound : store.Sound) (rotation : Nat)
    : Sound { store with rotations := Function.update store.rotations rotation none } := by
  refine sound.rotations _ fun other read reading => ?_
  by_cases same : other = rotation
  · subst same
    simp at reading
  · rw [Function.update_of_ne same] at reading
    exact sound.read other read reading

/-- What an event issues is a fresh key, and the store with it is the store with the row. -/
theorem issues_some {store after : KeyStore} {event : Event} {row : ApiKeyRow}
    (issues : store.issues hashKey event = some (row, after))
    : ∃ tenants, { store with tenants }.insert row = some after
      ∧ (tenants = store.tenants ∨ ∃ tenant, tenants = store.tenants ++ [tenant])
      ∧ row.revokedAt = none := by
  cases event with
  | createTenant id name scopes drawn now =>
      simp only [KeyStore.issues] at issues
      split at issues
      · cases issues
      · obtain ⟨_, inserted, same⟩ := Option.map_eq_some_iff.mp issues
        obtain ⟨rfl, rfl⟩ := Prod.mk.inj same
        exact ⟨_, inserted, .inr ⟨_, rfl⟩, rfl⟩
  | issueKey tenantId scopes label drawn now =>
      simp only [KeyStore.issues] at issues
      split at issues
      · obtain ⟨_, inserted, same⟩ := Option.map_eq_some_iff.mp issues
        obtain ⟨rfl, rfl⟩ := Prod.mk.inj same
        exact ⟨_, inserted, .inl rfl, rfl⟩
      · cases issues
  | rotationCommits rotation scopes label reason drawn now =>
      simp only [KeyStore.issues] at issues
      split at issues
      · cases issues
      · obtain ⟨_, inserted, same⟩ := Option.map_eq_some_iff.mp issues
        obtain ⟨rfl, rfl⟩ := Prod.mk.inj same
        exact ⟨_, inserted, .inl rfl, rfl⟩
  | rotationReads rotation tenantId => cases issues
  | rotationFails rotation => cases issues
  | revokeKey tenantId keyId reason now => cases issues

/-- Tenants are never deleted. -/
theorem Sound.tenants {store : KeyStore} (sound : store.Sound) {tenants : List TenantRow}
    (more : tenants = store.tenants ∨ ∃ tenant, tenants = store.tenants ++ [tenant])
    : Sound { store with tenants } := by
  refine ⟨sound.hashes, sound.ids, fun row member => ?_, sound.read⟩
  have known := sound.owned row member
  rcases more with rfl | ⟨tenant, rfl⟩
  · exact known
  · simp only [tenantExists, Table.lookup_append, Option.isSome_or, Bool.or_eq_true]
    exact .inl known

theorem Sound.issues {store after : KeyStore} {event : Event} {row : ApiKeyRow}
    (sound : store.Sound) (issues : store.issues hashKey event = some (row, after))
    : after.Sound := by
  obtain ⟨tenants, inserted, more, -⟩ := issues_some hashKey issues
  exact (sound.tenants more).insert inserted

/-- Every event keeps the store sound, by cases on the event. -/
theorem Sound.step {store : KeyStore} (sound : store.Sound) (event : Event)
    : (store.step hashKey event).Sound := by
  have issuing : (((store.issues hashKey event).map Prod.snd).getD store).Sound := by
    cases issues : store.issues hashKey event with
    | none => exact sound
    | some issued =>
        obtain ⟨row, after⟩ := issued
        exact sound.issues hashKey issues
  cases event with
  | createTenant id name scopes drawn now => exact issuing
  | issueKey tenantId scopes label drawn now => exact issuing
  | rotationReads rotation tenantId =>
      refine sound.rotations _ fun other read reading id member => ?_
      by_cases same : other = rotation
      · subst same
        rw [Function.update_self] at reading
        split at reading
        · obtain rfl := Option.some.inj reading
          obtain ⟨row, live, rfl⟩ := List.mem_map.mp member
          exact List.mem_map_of_mem (List.mem_of_mem_filter live)
        · cases reading
      · rw [Function.update_of_ne same] at reading
        exact sound.read other read reading id member
  | rotationCommits rotation scopes label reason drawn now =>
      simp only [KeyStore.step]
      split
      · next read row after reading issues =>
        exact ((sound.issues hashKey issues).revokeWhere _ _ _).ended rotation
      · exact sound.ended rotation
  | rotationFails rotation => exact sound.ended rotation
  | revokeKey tenantId keyId reason now => exact sound.revokeWhere _ _ _

theorem Sound.run {store : KeyStore} (sound : store.Sound) (events : List Event)
    : (store.run hashKey events).Sound := by
  induction events generalizing store with
  | nil => exact sound
  | cons event events ih => exact ih (sound.step hashKey event)

-----------------------------------------------------------------------------
-- Which keys stand

/-- The tenant whose keys a rotation that is under way has read, after the events. -/
def reading (rotation : Nat) (events : List Event) : Option String :=
  events.foldl
    (fun current event =>
      match event with
      | .rotationReads other tenantId => if other = rotation then some tenantId else current
      | .rotationCommits other .. => if other = rotation then none else current
      | .rotationFails other => if other = rotation then none else current
      | _ => current)
    none

/-- An event strikes a key out that stands: it revokes it by name, or commits a rotation of its
tenant that has read the keys since it was issued.
-/
def Strikes (store : KeyStore) (since : List Event) (row : ApiKeyRow) : Event → Prop
  | .revokeKey tenantId keyId _ _ => tenantId = row.tenantId ∧ keyId = row.id
  | .rotationCommits rotation scopes label reason drawn now =>
      reading rotation since = some row.tenantId
        ∧ (store.issues hashKey (.rotationCommits rotation scopes label reason drawn now)).isSome
  | _ => False

/-- Some event of those since the store was as given has struck the key out. -/
def Revoked (store : KeyStore) (row : ApiKeyRow) (since : List Event) : Prop :=
  ∃ before event after, since = before ++ event :: after
    ∧ (store.run hashKey before).Strikes hashKey before row event

theorem revoked_append {store : KeyStore} {row : ApiKeyRow} {since : List Event} {event : Event}
    : store.Revoked hashKey row (since ++ [event])
      ↔ store.Revoked hashKey row since
        ∨ (store.run hashKey since).Strikes hashKey since row event := by
  constructor
  · rintro ⟨before, struck, after, same, strikes⟩
    rcases List.eq_nil_or_concat after with rfl | ⟨after, last, rfl⟩
    · obtain ⟨rfl, last⟩ := List.append_inj' same rfl
      obtain rfl := (List.cons.inj last).1
      exact .inr strikes
    · rw [List.concat_eq_append, ← List.cons_append, ← List.append_assoc] at same
      obtain ⟨rfl, -⟩ := List.append_inj' same rfl
      exact .inl ⟨before, struck, after, rfl, strikes⟩
  · rintro (⟨before, struck, after, rfl, strikes⟩ | strikes)
    · exact ⟨before, struck, after ++ [event], by simp, strikes⟩
    · exact ⟨since, event, [], rfl, strikes⟩

/-- What is to be known of a key that was issued, some events later: its row is there, and is live
unless it was revoked; and while it is live, the rotations that have read it are those that have
read the keys of its tenant since.
-/
structure Follows (store : KeyStore) (row : ApiKeyRow) (since : List Event) : Prop where
  stays
    : ∃ now ∈ (store.run hashKey since).keys, row.Became now
      ∧ (now.revokedAt = none ↔ ¬ store.Revoked hashKey row since)
  read
    : ¬ store.Revoked hashKey row since
      → ∀ rotation,
        (∃ read, (store.run hashKey since).rotations rotation = some read
            ∧ row.id ∈ read.liveIds)
          ↔ reading rotation since = some row.tenantId

/-- A revocation keeps a row's other columns, and the row live unless it is chosen. -/
theorem stays_revokeWhere {store : KeyStore} {row now : ApiKeyRow} (member : now ∈ store.keys)
    (became : row.Became now) (chosen : ApiKeyRow → Bool) (reason : String) (moment : Int)
    : ∃ later ∈ (store.revokeWhere chosen reason moment).keys, row.Became later
      ∧ (later.revokedAt = none ↔ now.revokedAt = none ∧ chosen now = false) := by
  refine ⟨_, List.mem_map_of_mem member, ?_⟩
  split
  · next revoked =>
    exact ⟨⟨became.keyHash, became.tenantId, became.id, became.scopes⟩, by simp [revoked.1]⟩
  · next kept =>
    refine ⟨became, ⟨fun live => ⟨live, ?_⟩, And.left⟩⟩
    simpa [live] using kept

theorem reading_append (rotation : Nat) (events : List Event) (event : Event)
    : reading rotation (events ++ [event])
      = match event with
        | .rotationReads other tenantId =>
            if other = rotation then some tenantId else reading rotation events
        | .rotationCommits other .. => if other = rotation then none else reading rotation events
        | .rotationFails other => if other = rotation then none else reading rotation events
        | _ => reading rotation events := by
  simp only [reading, List.foldl_append, List.foldl_cons, List.foldl_nil]

theorem run_append (store : KeyStore) (events : List Event) (event : Event)
    : store.run hashKey (events ++ [event]) = (store.run hashKey events).step hashKey event := by
  simp only [run, List.foldl_append, List.foldl_cons, List.foldl_nil]

/-- An event that strikes no key and leaves the keys and the rotations' reads. -/
theorem Follows.undisturbed {store : KeyStore} {row : ApiKeyRow} {since : List Event}
    (follows : store.Follows hashKey row since) {event : Event}
    (keys
      : ∀ now ∈ (store.run hashKey since).keys,
        now ∈ ((store.run hashKey since).step hashKey event).keys)
    (spares : ¬ (store.run hashKey since).Strikes hashKey since row event)
    (read
      : ¬ store.Revoked hashKey row since
        → ∀ rotation,
          (∃ read, ((store.run hashKey since).step hashKey event).rotations rotation = some read
              ∧ row.id ∈ read.liveIds)
            ↔ reading rotation (since ++ [event]) = some row.tenantId)
    : store.Follows hashKey row (since ++ [event]) := by
  have revoked
      : store.Revoked hashKey row (since ++ [event]) ↔ store.Revoked hashKey row since := by
    rw [revoked_append, or_iff_left spares]
  obtain ⟨now, member, became, live⟩ := follows.stays
  constructor
  · rw [run_append, revoked]
    exact ⟨now, keys now member, became, live⟩
  · rw [revoked, run_append]
    exact read

/-- An event that revokes what it chooses of the keys, some of which it may have issued. -/
theorem Follows.revokes {store : KeyStore} {row : ApiKeyRow} {since : List Event}
    (follows : store.Follows hashKey row since) {event : Event} {issued : KeyStore}
    {chosen : ApiKeyRow → Bool} {reason : String} {moment : Int}
    (keys : ∀ now ∈ (store.run hashKey since).keys, now ∈ issued.keys)
    (steps
      : ((store.run hashKey since).step hashKey event).keys
        = (issued.revokeWhere chosen reason moment).keys)
    (strikes
      : ¬ store.Revoked hashKey row since → ∀ now, row.Became now
        → ((store.run hashKey since).Strikes hashKey since row event ↔ chosen now = true))
    (read
      : ¬ store.Revoked hashKey row since
        → ∀ rotation,
          (∃ read, ((store.run hashKey since).step hashKey event).rotations rotation = some read
              ∧ row.id ∈ read.liveIds)
            ↔ reading rotation (since ++ [event]) = some row.tenantId)
    : store.Follows hashKey row (since ++ [event]) := by
  obtain ⟨now, member, became, live⟩ := follows.stays
  constructor
  · obtain ⟨later, there, becomes, lives⟩ :=
      stays_revokeWhere (keys now member) became chosen reason moment
    refine ⟨later, by rwa [run_append, steps], becomes, ?_⟩
    rw [lives, revoked_append, not_or, live]
    refine and_congr_right fun stands => ?_
    rw [strikes stands now became, Bool.not_eq_true]
  · intro stands
    rw [revoked_append, not_or] at stands
    rw [run_append]
    exact read stands.1

/-- A rotation ends without having struck anything. -/
theorem Follows.ended {store : KeyStore} {row : ApiKeyRow} {since : List Event}
    (follows : store.Follows hashKey row since) {event : Event} {rotation : Nat}
    (spares : ¬ (store.run hashKey since).Strikes hashKey since row event)
    (ends
      : (store.run hashKey since).step hashKey event
        = { store.run hashKey since with
              rotations := Function.update (store.run hashKey since).rotations rotation none })
    (reads
      : ∀ other, reading other (since ++ [event])
        = if rotation = other then none else reading other since)
    : store.Follows hashKey row (since ++ [event]) := by
  refine follows.undisturbed hashKey (by rw [ends]; exact fun now member => member) spares ?_
  intro stands other
  rw [ends, reads]
  by_cases same : other = rotation
  · subst same
    simp
  · simpa [Function.update_of_ne same, Ne.symm same] using follows.read stands other

/-- The ids of the keys that a rotation reads are those of the live keys of its tenant. -/
theorem mem_liveIdsFor {store : KeyStore} (sound : store.Sound) {now : ApiKeyRow}
    (member : now ∈ store.keys) (live : now.revokedAt = none) (tenantId : String)
    : now.id ∈ store.liveIdsFor tenantId ↔ tenantId = now.tenantId := by
  simp only [liveIdsFor, List.mem_map, List.mem_filter, decide_eq_true_eq]
  constructor
  · rintro ⟨other, ⟨there, its, -⟩, same⟩
    obtain rfl := List.inj_on_of_nodup_map sound.ids there member same
    exact its.symm
  · rintro rfl
    exact ⟨now, ⟨member, rfl, live⟩, rfl⟩

/-- A rotation that commits inserts its key and revokes those it has read. -/
theorem step_commits {store after : KeyStore} {rotation : Nat} {read : Rotation}
    {scopes : Option (List Scope)} {label reason : Option String} {drawn : DrawnKey} {now : Int}
    {row : ApiKeyRow} (begun : store.rotations rotation = some read)
    (issues
      : store.issues hashKey (.rotationCommits rotation scopes label reason drawn now)
        = some (row, after))
    : (store.step hashKey (.rotationCommits rotation scopes label reason drawn now)).keys
        = (after.revokeWhere (fun row => row.id ∈ read.liveIds) (reason.getD "rotated") now).keys
      ∧ (store.step hashKey (.rotationCommits rotation scopes label reason drawn now)).rotations
        = Function.update after.rotations rotation none := by
  constructor
  · simp only [KeyStore.step, begun, issues]
  · simp only [KeyStore.step, begun, issues, revokeWhere]

/-- What is to be known of a key is known after one more event, by cases on the event. -/
theorem Follows.step {store : KeyStore} {row : ApiKeyRow} {since : List Event}
    (follows : store.Follows hashKey row since) (sound : (store.run hashKey since).Sound)
    (event : Event)
    : store.Follows hashKey row (since ++ [event]) := by
  have issuing (unread : ∀ rotation, reading rotation (since ++ [event]) = reading rotation since)
      (spares : ¬ (store.run hashKey since).Strikes hashKey since row event)
      (steps
        : (store.run hashKey since).step hashKey event
          = (((store.run hashKey since).issues hashKey event).map Prod.snd).getD
            (store.run hashKey since))
      : store.Follows hashKey row (since ++ [event]) := by
    have after
        : (∀ now ∈ (store.run hashKey since).keys,
            now ∈ ((store.run hashKey since).step hashKey event).keys)
          ∧ ((store.run hashKey since).step hashKey event).rotations
            = (store.run hashKey since).rotations := by
      rw [steps]
      cases issues : (store.run hashKey since).issues hashKey event with
      | none => exact ⟨fun now member => member, rfl⟩
      | some issued =>
          obtain ⟨row, after⟩ := issued
          obtain ⟨tenants, inserted, -⟩ := issues_some hashKey issues
          simp only [Option.map_some, Option.getD_some, (insert_some inserted).1]
          exact ⟨fun now member => List.mem_append_left _ member, trivial⟩
    refine follows.undisturbed hashKey after.1 spares fun stands rotation => ?_
    rw [after.2, unread]
    exact follows.read stands rotation
  cases event with
  | createTenant tenantId name scopes drawn now =>
      exact issuing (fun rotation => reading_append rotation since _) id rfl
  | issueKey tenantId scopes label drawn now =>
      exact issuing (fun rotation => reading_append rotation since _) id rfl
  | rotationReads rotation tenantId =>
      refine follows.undisturbed hashKey (fun now member => member) id fun stands other => ?_
      rw [reading_append]
      by_cases same : other = rotation
      · subst same
        obtain ⟨now, member, became, live⟩ := follows.stays
        have read :=
          mem_liveIdsFor sound member (live.mpr stands) tenantId
        rw [became.id, became.tenantId] at read
        have known := sound.owned now member
        rw [became.tenantId] at known
        simp only [KeyStore.step, Function.update_self, if_true, Option.some.injEq]
        rw [← read]
        constructor
        · rintro ⟨reads, taken, inside⟩
          split at taken
          · obtain rfl := Option.some.inj taken
            exact inside
          · cases taken
        · intro inside
          obtain rfl := read.mp inside
          exact ⟨_, by rw [if_pos known], inside⟩
      · simp only [KeyStore.step, Function.update_of_ne same, if_neg (Ne.symm same)]
        exact follows.read stands other
  | rotationCommits rotation scopes label reason drawn now =>
      have reads (other : Nat)
          : reading other
              (since ++ [.rotationCommits rotation scopes label reason drawn now])
            = if rotation = other then none else reading other since :=
        reading_append other since _
      cases issues : (store.run hashKey since).issues hashKey
          (.rotationCommits rotation scopes label reason drawn now) with
      | none =>
          refine follows.ended hashKey (by simp [Strikes, issues]) ?_ reads
          simp only [KeyStore.step, issues]
          cases (store.run hashKey since).rotations rotation <;> rfl
      | some issued =>
          obtain ⟨new, after⟩ := issued
          obtain ⟨tenants, inserted, -⟩ := issues_some hashKey issues
          obtain ⟨rfl, -⟩ := insert_some inserted
          cases begun : (store.run hashKey since).rotations rotation with
          | none => simp [KeyStore.issues, begun] at issues
          | some read =>
              obtain ⟨keys, rotations⟩ := step_commits hashKey begun issues
              refine follows.revokes hashKey (fun now member => List.mem_append_left [new] member)
                keys (fun stands now became => ?_)
                (fun stands other => ?_)
              · have known := follows.read stands rotation
                simp only [begun, Option.some.injEq, exists_eq_left'] at known
                simp [Strikes, issues, ← known, became.id]
              · rw [rotations, reads]
                by_cases same : other = rotation
                · subst same
                  simp
                · simpa [Function.update_of_ne same, Ne.symm same] using
                    follows.read stands other
  | rotationFails rotation =>
      exact follows.ended hashKey id rfl fun other => reading_append other since _
  | revokeKey tenantId keyId reason now =>
      refine follows.revokes hashKey (fun now member => member) rfl (fun stands now became => ?_)
        fun stands other => ?_
      · simp only [Strikes, became.tenantId, became.id, decide_eq_true_eq]
        exact and_congr eq_comm eq_comm
      · rw [reading_append]
        exact follows.read stands other

theorem not_revoked_nil {store : KeyStore} {row : ApiKeyRow} : ¬ store.Revoked hashKey row [] := by
  rintro ⟨before, event, after, same, -⟩
  simp at same

/-- A key that is issued is live, and no rotation has read it. -/
theorem Follows.issued {store after : KeyStore} {event : Event} {row : ApiKeyRow}
    (sound : store.Sound) (issues : store.issues hashKey event = some (row, after))
    : (store.step hashKey event).Follows hashKey row [] := by
  obtain ⟨tenants, inserted, -, live⟩ := issues_some hashKey issues
  obtain ⟨rfl, -, -, fresh⟩ := insert_some inserted
  have unread : ∀ rotation read, store.rotations rotation = some read → row.id ∉ read.liveIds :=
    fun rotation read reading member => fresh (sound.read rotation read reading _ member)
  have landed
      : row ∈ (store.step hashKey event).keys
        ∧ ∀ rotation read, (store.step hashKey event).rotations rotation = some read
          → store.rotations rotation = some read := by
    have added : row ∈ store.keys ++ [row] := List.mem_append_right _ (List.mem_singleton_self row)
    cases event with
    | createTenant tenantId name scopes drawn now =>
        simp only [KeyStore.step, issues]
        exact ⟨added, fun _ _ reading => reading⟩
    | issueKey tenantId scopes label drawn now =>
        simp only [KeyStore.step, issues]
        exact ⟨added, fun _ _ reading => reading⟩
    | rotationCommits rotation scopes label reason drawn now =>
        cases begun : store.rotations rotation with
        | none => simp [KeyStore.issues, begun] at issues
        | some read =>
            obtain ⟨keys, rotations⟩ := step_commits hashKey begun issues
            rw [keys, rotations]
            constructor
            · refine List.mem_map.mpr ⟨row, added, if_neg ?_⟩
              simp [unread rotation read begun]
            · intro other reads reading
              by_cases same : other = rotation
              · subst same
                simp at reading
              · rwa [Function.update_of_ne same] at reading
    | rotationReads rotation tenantId => cases issues
    | rotationFails rotation => cases issues
    | revokeKey tenantId keyId reason now => cases issues
  constructor
  · exact ⟨row, landed.1, ⟨rfl, rfl, rfl, rfl⟩, iff_of_true live (not_revoked_nil hashKey)⟩
  · intro _ rotation
    constructor
    · rintro ⟨read, reads, inside⟩
      exact absurd inside (unread rotation read (landed.2 rotation read reads))
    · exact nofun

/-- By induction on the events since, from the last. -/
theorem Follows.run {store : KeyStore} {row : ApiKeyRow} (sound : store.Sound)
    (follows : store.Follows hashKey row []) (since : List Event)
    : store.Follows hashKey row since := by
  induction since using List.reverseRecOn with
  | nil => exact follows
  | append_singleton since event ih => exact ih.step hashKey (sound.run hashKey since) event

/-- Every key was issued by some event of the history. -/
theorem mem_run {events : List Event} {now : ApiKeyRow}
    (member : now ∈ (empty.run hashKey events).keys)
    : ∃ earlier event since row after, events = earlier ++ event :: since
      ∧ (empty.run hashKey earlier).issues hashKey event = some (row, after)
      ∧ row.id = now.id := by
  induction events using List.reverseRecOn generalizing now with
  | nil => cases member
  | append_singleton events event ih =>
      -- Either the last event issued it, or its row was there before.
      have older {old : ApiKeyRow} (there : old ∈ (empty.run hashKey events).keys)
          (same : old.id = now.id)
          : ∃ earlier issuing since row after, events ++ [event] = earlier ++ issuing :: since
            ∧ (empty.run hashKey earlier).issues hashKey issuing = some (row, after)
            ∧ row.id = now.id := by
        obtain ⟨earlier, issuing, since, row, after, rfl, issues, its⟩ := ih there
        exact ⟨earlier, issuing, since ++ [event], row, after, by simp, issues, its.trans same⟩
      have revoked {store : KeyStore} {chosen : ApiKeyRow → Bool} {reason : String} {moment : Int}
          (there : now ∈ (store.revokeWhere chosen reason moment).keys)
          : ∃ old ∈ store.keys, old.id = now.id := by
        have ids := store.map_revokeWhere ApiKeyRow.id (fun _ _ _ => rfl) chosen reason moment
        have inside := List.mem_map_of_mem (f := ApiKeyRow.id) there
        rw [ids] at inside
        exact List.mem_map.mp inside
      have issuing {row : ApiKeyRow} {after : KeyStore}
          (issues : (empty.run hashKey events).issues hashKey event = some (row, after))
          {old : ApiKeyRow} (there : old ∈ after.keys) (same : old.id = now.id)
          : ∃ earlier issuing since row after, events ++ [event] = earlier ++ issuing :: since
            ∧ (empty.run hashKey earlier).issues hashKey issuing = some (row, after)
            ∧ row.id = now.id := by
        obtain ⟨tenants, inserted, -⟩ := issues_some hashKey issues
        obtain ⟨keys, -⟩ := insert_some inserted
        rw [keys] at there
        rcases List.mem_append.mp there with before | last
        · exact older before same
        · obtain rfl := List.mem_singleton.mp last
          exact ⟨events, event, [], old, after, rfl, issues, same⟩
      rw [run_append] at member
      cases event with
      | createTenant tenantId name scopes drawn moment =>
          cases issues : (empty.run hashKey events).issues hashKey
              (.createTenant tenantId name scopes drawn moment) with
          | none =>
              simp only [KeyStore.step, issues] at member
              exact older member rfl
          | some issued =>
              simp only [KeyStore.step, issues] at member
              exact issuing issues member rfl
      | issueKey tenantId scopes label drawn moment =>
          cases issues : (empty.run hashKey events).issues hashKey
              (.issueKey tenantId scopes label drawn moment) with
          | none =>
              simp only [KeyStore.step, issues] at member
              exact older member rfl
          | some issued =>
              simp only [KeyStore.step, issues] at member
              exact issuing issues member rfl
      | rotationReads rotation tenantId => exact older member rfl
      | rotationFails rotation => exact older member rfl
      | revokeKey tenantId keyId reason moment =>
          obtain ⟨old, there, same⟩ := revoked member
          exact older there same
      | rotationCommits rotation scopes label reason drawn moment =>
          cases issues : (empty.run hashKey events).issues hashKey
              (.rotationCommits rotation scopes label reason drawn moment) with
          | none =>
              have kept : now ∈ (empty.run hashKey events).keys := by
                simp only [KeyStore.step, issues] at member
                revert member
                cases (empty.run hashKey events).rotations rotation <;> exact fun member => member
              exact older kept rfl
          | some issued =>
              cases begun : (empty.run hashKey events).rotations rotation with
              | none => simp [KeyStore.issues, begun] at issues
              | some read =>
                  rw [(step_commits hashKey begun issues).1] at member
                  obtain ⟨old, there, same⟩ := revoked member
                  exact issuing issues there same

-----------------------------------------------------------------------------
-- A key authenticates from its issue to its revocation

/-- A key authenticates where its row is live, as the tenant of the row. -/
theorem authenticate_iff {store : KeyStore} (sound : store.Sound) (apiKey : String)
    (tenantId keyId : String) (scopes : List Scope)
    : (∃ tenant, store.authenticate hashKey (some apiKey) = .ok tenant
          ∧ tenant.id = tenantId ∧ tenant.keyId = keyId ∧ tenant.scopes = scopes)
      ↔ apiKey ≠ "" ∧ ∃ row ∈ store.keys, row.keyHash = hashKey apiKey ∧ row.revokedAt = none
          ∧ row.tenantId = tenantId ∧ row.id = keyId ∧ row.scopes = scopes := by
  by_cases blank : apiKey = ""
  · simp [authenticate, blank]
  simp only [authenticate, if_neg blank]
  cases found : store.keys.find? fun row => row.keyHash = hashKey apiKey ∧ row.revokedAt = none with
  | none =>
      have none := List.find?_eq_none.mp found
      constructor
      · rintro ⟨tenant, same, -⟩
        cases same
      · rintro ⟨-, row, member, hash, live, -⟩
        exact absurd (by simp [hash, live]) (none row member)
  | some row =>
      have member := List.mem_of_find?_eq_some found
      obtain ⟨hash, live⟩ : row.keyHash = hashKey apiKey ∧ row.revokedAt = none := by
        simpa using List.find?_some found
      obtain ⟨tenant, owner⟩ := Option.isSome_iff_exists.mp (sound.owned row member)
      have its : tenant.id = row.tenantId := Table.lookup_key owner
      simp only [owner, Except.ok.injEq, exists_eq_left', its]
      constructor
      · rintro ⟨tenants, ids, same⟩
        exact ⟨blank, row, member, hash, live, tenants, ids, same⟩
      · rintro ⟨-, other, there, otherHash, -, tenants, ids, same⟩
        obtain rfl :=
          List.inj_on_of_nodup_map sound.hashes member there (hash.trans otherHash.symm)
        exact ⟨tenants, ids, same⟩

/-- After any history of issues, revocations and rotations, in which any number of rotations may be
under way between the events, a presented key authenticates just if some event issued it and none
since has struck it out: no revocation of its tenant that names it, and no rotation of its tenant
that read the keys after it was issued and was committed. It authenticates as its tenant and with
the scopes that it was issued with. By induction on the events since the issue.
-/
theorem authenticates_iff_issued_and_not_revoked (events : List Event) (apiKey : String)
    (tenantId keyId : String) (scopes : List Scope)
    : (∃ tenant, (empty.run hashKey events).authenticate hashKey (some apiKey) = .ok tenant
          ∧ tenant.id = tenantId ∧ tenant.keyId = keyId ∧ tenant.scopes = scopes)
      ↔ apiKey ≠ "" ∧ ∃ earlier event since row after, events = earlier ++ event :: since
          ∧ (empty.run hashKey earlier).issues hashKey event = some (row, after)
          ∧ row.keyHash = hashKey apiKey
          ∧ row.tenantId = tenantId ∧ row.id = keyId ∧ row.scopes = scopes
          ∧ ¬ ((empty.run hashKey earlier).step hashKey event).Revoked hashKey row since := by
  rw [authenticate_iff hashKey (sound_empty.run hashKey events)]
  refine and_congr_right fun _ => ?_
  have traced {earlier : List Event} (since : List Event) {event : Event} {row : ApiKeyRow}
      {after : KeyStore}
      (issues : (empty.run hashKey earlier).issues hashKey event = some (row, after))
      : ∃ now ∈ (empty.run hashKey (earlier ++ event :: since)).keys, row.Became now
        ∧ (now.revokedAt = none
          ↔ ¬ ((empty.run hashKey earlier).step hashKey event).Revoked hashKey row since) := by
    have sound := sound_empty.run hashKey earlier
    have follows :=
      (Follows.issued hashKey sound issues).run hashKey (sound.step hashKey event) since
    have runs
        : empty.run hashKey (earlier ++ event :: since)
          = ((empty.run hashKey earlier).step hashKey event).run hashKey since := by
      simp only [run, List.foldl_append, List.foldl_cons]
    rw [runs]
    exact follows.stays
  constructor
  · rintro ⟨now, member, hash, live, rfl, rfl, rfl⟩
    obtain ⟨earlier, event, since, row, after, rfl, issues, same⟩ := mem_run hashKey member
    obtain ⟨other, there, became, stands⟩ := traced since issues
    obtain rfl :=
      List.inj_on_of_nodup_map (sound_empty.run hashKey _).ids member there
        (same.symm.trans became.id.symm)
    exact ⟨earlier, event, since, row, after, rfl, issues, became.keyHash.symm.trans hash,
      became.tenantId.symm, same, became.scopes.symm, stands.mp live⟩
  · rintro ⟨earlier, event, since, row, after, rfl, issues, hash, rfl, rfl, rfl, stands⟩
    obtain ⟨now, member, became, live⟩ := traced since issues
    exact ⟨now, member, became.keyHash.trans hash, live.mpr stands, became.tenantId, became.id,
      became.scopes⟩

end KeyStore

end Cixtech.Auth
