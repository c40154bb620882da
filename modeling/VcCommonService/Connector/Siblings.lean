import VcCommonService.Connector.Registry

/-!
# A connector and its siblings

Two tables that agree on one connector and differ in the others of its tenant. Naming the connector
does not isolate it: the list that it is picked from is read as a whole, and one sibling under an
old key that does not decrypt fails the read.
-/

namespace VcCommonService.Connectors.Registry
open Lib
open Credentials (CredentialFormat)

section Siblings

variable {μ : Type} {env : Env μ} {c : ConnectorCredential} {format : Option CredentialFormat}

def Env.withRows (env : Env μ) (rows : List ConnectorCredential) : Env μ := { env with rows }

/-- The options of a caller that knows the connector. -/
def naming (c : ConnectorCredential) : ResolveOptions := { connectorId := some c.id }

/-- Every other connector of the tenant can be read. -/
def SiblingsRead (env : Env μ) (c : ConnectorCredential) (rows : List ConnectorCredential) : Prop :=
  ∀ row ∈ rows, row.tenantId = c.tenantId → row.id ≠ c.id → Rotates env.aes env.provider row

theorem followedRule_naming (hid : c.id ≠ "") (env : Env μ) :
    followedRule env c.tenantId (naming c) = .ok (.byId c.id) := by
  change Except.ok (idRule (some c.id)) = _
  rw [idRule, Js.truthy_some hid]

/-- A resolution by id that returns has read every connector of the tenant. -/
theorem readable_of_resolve (hid : c.id ≠ "") {r : ResolvedAdapter μ}
    (h : resolve env c.tenantId format (naming c) = .ok r) :
    Readable env.aes env.provider env.rows c.tenantId := by
  obtain ⟨override, hoverride, h⟩ := bind_eq_ok.mp h
  cases hoverride
  obtain ⟨connector, hconnector, -⟩ := bind_eq_ok.mp h
  rw [findConnector_eq] at hconnector
  obtain ⟨id, hid', hpick⟩ := bind_eq_ok.mp hconnector
  cases hid'
  rw [idRule, Js.truthy_some hid] at hpick
  obtain ⟨found, hfound, -⟩ := bind_eq_ok.mp hpick
  exact readable_of_findByTenant (mapError_eq_ok.mp hfound)

theorem chosen_of_mem {rows : List ConnectorCredential} (hrow : c ∈ rows)
    (hunique : Table.UniqueKeys ConnectorCredential.id rows) (hactive : c.active = true) :
    (rows.filter fun row => (Rule.byId c.id).admits c.tenantId row) = [c] := by
  have hlookup : Table.lookup ConnectorCredential.id c.id rows = some c :=
    (Table.lookup_eq_some_iff hunique).mpr ⟨hrow, rfl⟩
  change (rows.filter fun row => decide (row.id = c.id) &&
    (decide (row.tenantId = c.tenantId) && row.active)) = [c]
  rw [Table.filter_key hunique, hlookup]
  simp [Option.filter_some, hactive]

/-- A resolution by id returns what the connector's own row gives, once the list is read. -/
theorem resolve_naming {rows : List ConnectorCredential} (hid : c.id ≠ "") (hrow : c ∈ rows)
    (hunique : Table.UniqueKeys ConnectorCredential.id rows) (hactive : c.active = true)
    (hreads : Readable env.aes env.provider rows c.tenantId)
    {r : ResolvedAdapter μ} (hregistered : r.adapter ∈ env.adapters.registered)
    (htype : toPortConnectorType c.connectorType = some r.adapter.connectorType)
    (hr : resolveWith env r.adapter (env.read c) format = .ok r) :
    resolve (env.withRows rows) c.tenantId format (naming c) = .ok r := by
  refine (resolve_ok_iff hreads hunique format (naming c) r).mpr ?_
  exact ⟨.byId c.id, c, followedRule_naming hid _, chosen_of_mem hrow hunique hactive, hregistered,
    htype, hr⟩

end Siblings

/-! ### A sibling under a key that is gone -/

/-- Stored under version 9, which is not configured. -/
def orphanedRow : ConnectorCredential := { connectorRow "k3" .credo false with keyVersion := 9 }

end VcCommonService.Connectors.Registry
