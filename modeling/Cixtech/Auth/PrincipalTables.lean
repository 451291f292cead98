import Cixtech.Auth.Sessions

/-! The table of the accounts, beside the sessions that refer to it. -/

namespace Cixtech.Auth

open Cixtech.Foundation

namespace SessionTables

/-- `UPDATE principal … WHERE id`, of columns under no constraint. -/
def updatePrincipal (tables : SessionTables) (id : String) (change : PrincipalRow → PrincipalRow)
    (keeps : ∀ row, (change row).id = row.id)
    : SessionTables where
  principals := Table.update (fun row : PrincipalRow => row.id) tables.principals id change
  sessions := tables.sessions
  principalKey := Table.nodup_update id change keeps tables.principalKey
  sessionKey := tables.sessionKey
  tokenHashKey := tables.tokenHashKey
  principalReference := by
    intro row member
    have known := tables.principalReference row member
    simp only [List.mem_map, Table.update, exists_exists_and_eq_and] at known ⊢
    obtain ⟨principal, there, owner⟩ := known
    refine ⟨principal, there, ?_⟩
    split
    · rw [keeps, owner]
    · exact owner

/-- An address belongs to one operator, and to one user of a tenant. -/
def emailTaken (lower : String → String) (tables : SessionTables) (row : PrincipalRow) : Bool :=
  tables.principals.any fun other =>
    other.kind = row.kind && other.tenantId = row.tenantId && lower other.email = lower row.email

/-- `principalQ.insert` -/
def insertPrincipal (lower : String → String) (tables : SessionTables) (row : PrincipalRow)
    : Option SessionTables :=
  if fresh : row.id ∉ tables.principals.map (fun row => row.id)
      ∧ tables.emailTaken lower row = false
      ∧ (row.kind = .operator ↔ row.tenantId = none) then
    some
      { principals := tables.principals ++ [row]
        sessions := tables.sessions
        principalKey := by
          rw [List.map_append]
          exact tables.principalKey.append (by simp) (by simpa using fresh.1)
        sessionKey := tables.sessionKey
        tokenHashKey := tables.tokenHashKey
        principalReference := by
          intro session member
          rw [List.map_append]
          exact List.mem_append_left _ (tables.principalReference session member) }
  else none

/-- `activeOperatorCount` -/
def operatorCount (tables : SessionTables) : Nat :=
  (tables.principals.filter fun row => row.kind = .operator && row.status = .active).length

end SessionTables

-----------------------------------------------------------------------------
-- What becomes of an account

/-- The two rows are of one account: nothing changes these columns. -/
structure SameAccount (row later : PrincipalRow) : Prop where
  id : later.id = row.id
  kind : later.kind = row.kind
  tenantId : later.tenantId = row.tenantId
  email : later.email = row.email
  role : later.role = row.role

theorem SameAccount.refl (row : PrincipalRow) : SameAccount row row := ⟨rfl, rfl, rfl, rfl, rfl⟩

theorem SameAccount.trans {first second third : PrincipalRow} (here : SameAccount first second)
    (there : SameAccount second third)
    : SameAccount first third :=
  ⟨there.id.trans here.id, there.kind.trans here.kind, there.tenantId.trans here.tenantId,
    there.email.trans here.email, there.role.trans here.role⟩

/-- No account is lost, and none changes its kind, tenant, address or role. -/
def Keeps (before after : SessionTables) : Prop :=
  ∀ id row, before.principal? id = some row
    → ∃ later, after.principal? id = some later ∧ SameAccount row later

theorem Keeps.of_principals {before after : SessionTables}
    (same : after.principals = before.principals)
    : Keeps before after := by
  intro id row found
  refine ⟨row, ?_, .refl row⟩
  rwa [SessionTables.principal?, same]

theorem Keeps.update {tables after : SessionTables} {id : String}
    {change : PrincipalRow → PrincipalRow}
    (updated
      : after.principals
        = Table.update (fun row : PrincipalRow => row.id) tables.principals id change)
    (same : ∀ row, SameAccount row (change row))
    : Keeps tables after := by
  intro other row found
  have here : Table.lookup (fun row : PrincipalRow => row.id) tables.principals other = some row :=
    found
  have looked :=
    @Table.lookup_update _ _ _ (fun row : PrincipalRow => row.id) tables.principals other id change
      fun row => (same row).id
  rw [here] at looked
  simp only [SessionTables.principal?, updated, looked]
  split
  · exact ⟨change row, rfl, same row⟩
  · exact ⟨row, rfl, .refl row⟩

theorem insertPrincipal_principals {lower : String → String} {tables after : SessionTables}
    {row : PrincipalRow} (inserted : tables.insertPrincipal lower row = some after)
    : after.principals = tables.principals ++ [row] := by
  unfold SessionTables.insertPrincipal at inserted
  split at inserted
  · cases inserted
    rfl
  · cases inserted

theorem Keeps.insert {tables after : SessionTables} {row : PrincipalRow}
    (inserted : after.principals = tables.principals ++ [row])
    : Keeps tables after := by
  intro id old found
  refine ⟨old, ?_, .refl old⟩
  have here : Table.lookup (fun row : PrincipalRow => row.id) tables.principals id = some old :=
    found
  rw [SessionTables.principal?, inserted, Table.lookup_append, here]
  rfl

end Cixtech.Auth
