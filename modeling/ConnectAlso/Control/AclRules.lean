import ConnectAlso.Control.Schema
import ConnectAlso.Misc.KeyedTable

/-!
# The rule store

The table `acl_rules` of `services/control/src/db.rs` with its statements, functions and
handlers. `Policy` says what it is for: the rule of each id. Whatever the order in which
rules are written and deleted, the table is the policy and its listing shows every rule of
the policy once, by priority (`rules_refine_policy`).
-/

namespace ConnectAlso.Control.AclRules
open Misc Program

/-- `AclRuleRow`; the numbers of a row are an `i64` and `i32`s. -/
structure AclRuleRow where
  id : Int64
  priority : Int32
  action : String
  srcIp : String
  dstIp : String
  protocol : String
  srcPort : Int32
  dstPort : Int32
  deriving DecidableEq

/-- The table `acl_rules`, with `id PRIMARY KEY`. -/
abbrev RuleTable := KeyedTable AclRuleRow.id

/-- `DO UPDATE SET priority = excluded.priority, …`: every column but the id. -/
def setExcluded (excluded : AclRuleRow) : Assignment AclRuleRow.id where
  apply r := { excluded with id := r.id }
  keeps _ := rfl

/-- The statements on `acl_rules`, with their bound parameters. -/
inductive RuleStatement where
  /-- `INSERT INTO acl_rules (…) VALUES (…) ON CONFLICT(id) DO UPDATE SET …` -/
  | upsertRule (rule : AclRuleRow)
  /-- `SELECT … FROM acl_rules ORDER BY priority` -/
  | selectRules
  /-- `DELETE FROM acl_rules WHERE id = ?` -/
  | deleteRule (id : Int64)

/-- What a statement answers. -/
@[reducible] def RuleStatement.Answer : RuleStatement → Type
  | upsertRule _ => Except DbError Nat
  | selectRules => Except DbError (List AclRuleRow)
  | deleteRule _ => Except DbError Nat

/-- The statements as operations of a program. -/
abbrev ruleStatements : Signature where
  Op := RuleStatement
  Answer := RuleStatement.Answer

/-- A function of the service that works on `acl_rules`. -/
abbrev RuleSql (α : Type) := Program ruleStatements α

/-- How SQLite orders rules by priority; rules of one priority come in any order. -/
structure RuleOrder where
  sort : List AclRuleRow → List AclRuleRow
  ordered : ∀ rows, OrderedBy (fun a b => a.priority ≤ b.priority) rows (sort rows)

/-- What each statement answers and does. None of them can fail. -/
def handle (order : RuleOrder) : Handler ruleStatements RuleTable
  | .upsertRule rule, t => (.ok 1, t.upsert rule (setExcluded rule))
  | .selectRules, t => (.ok (order.sort t.rows), t)
  | .deleteRule id, t => (.ok (t.count fun r => r.id = id), t.delete fun r => r.id = id)

/-- `list_acl_rules`. -/
def listAclRules : RuleSql (Except DbError (List AclRuleRow)) :=
  @perform ruleStatements .selectRules

/-- `upsert_acl_rule`. -/
def upsertAclRule (rule : AclRuleRow) : RuleSql (Except DbError Unit) := do
  let rows : Except DbError Nat ← @perform ruleStatements (.upsertRule rule)
  return rows.map fun _ => ()

/-- `delete_acl_rule`: whether there was such a rule. -/
def deleteAclRule (id : Int64) : RuleSql (Except DbError Bool) := do
  let rows : Except DbError Nat ← @perform ruleStatements (.deleteRule id)
  return rows.map fun n => decide (0 < n)

/-- The status that the handlers return for an error. -/
inductive ErrorStatus where
  | internalServerError
  deriving DecidableEq, Repr

/-- `….map_err(|_| StatusCode::INTERNAL_SERVER_ERROR)`. -/
def orInternalServerError {α : Type} (result : Except DbError α) : Except ErrorStatus α :=
  result.mapError fun _ => .internalServerError

/-- A request about rules. -/
inductive RuleRequest where
  | list
  | upsert (rule : AclRuleRow)
  | delete (id : Int64)

/-- What it is answered. -/
inductive RuleReply where
  | rules (result : Except ErrorStatus (List AclRuleRow))
  | stored (result : Except ErrorStatus Unit)

/-- The program of a request: `handle_list_acl`, `handle_upsert_acl` and
    `handle_delete_acl`, which returns 200 also when there is no such rule. -/
def RuleRequest.program : RuleRequest → RuleSql RuleReply
  | list => do return .rules (orInternalServerError (← listAclRules))
  | upsert rule => do return .stored (orInternalServerError (← upsertAclRule rule))
  | delete id => do
    return .stored ((orInternalServerError (← deleteAclRule id)).map fun _ => ())

/-! ## The policy -/

/-- The rule of each id. -/
abbrev Policy := Int64 → Option AclRuleRow

/-- What a statement does to the policy. -/
def Policy.step (policy : Policy) : RuleStatement → Policy
  | .upsertRule rule => Function.update policy rule.id (some rule)
  | .selectRules => policy
  | .deleteRule id => Function.update policy id none

/-- The listing shows every rule of the policy once, by priority. -/
structure Policy.Lists (policy : Policy) (listed : List AclRuleRow) : Prop where
  nodup : (listed.map AclRuleRow.id).Nodup
  mem_iff : ∀ rule, rule ∈ listed ↔ policy rule.id = some rule
  sorted : listed.Pairwise fun a b => a.priority ≤ b.priority

/-- A statement acts on the table as on the policy. -/
theorem find_handle (order : RuleOrder) (statement : RuleStatement) (t : RuleTable) :
    KeyedTable.find (handle order statement t).2 = Policy.step (KeyedTable.find t) statement := by
  cases statement with
  | selectRules => rfl
  | deleteRule id => exact KeyedTable.find_delete_key t id
  | upsertRule rule =>
      show KeyedTable.find (KeyedTable.upsert t rule (setExcluded rule)) = _
      rw [KeyedTable.find_upsert, Policy.step]
      congr 2
      cases hfind : KeyedTable.find t rule.id with
      | none => rfl
      | some old =>
          have hid : old.id = rule.id := (KeyedTable.find_eq_some_iff.mp hfind).2
          simp [setExcluded, hid]

/-- A sequence of statements acts on the table as on the policy. -/
theorem find_run (order : RuleOrder) (t : RuleTable) (statements : List RuleStatement) :
    KeyedTable.find (run (fun t statement => (handle order statement t).2) t statements) =
      run Policy.step (KeyedTable.find t) statements :=
  map_run (J := fun _ => True) (f := KeyedTable.find) (fun _ _ _ => trivial)
    (fun t statement _ => find_handle order statement t) trivial statements

/-- `list_acl_rules` lists the policy. -/
theorem exec_listAclRules (order : RuleOrder) (t : RuleTable) :
    ∃ listed, exec (handle order) listAclRules t = (.ok listed, t) ∧
      Policy.Lists (KeyedTable.find t) listed := by
  have hall : t.select (fun _ => true) = t.rows := List.filter_true t.rows
  have hordered := order.ordered t.rows
  refine ⟨_, rfl, ?_, ?_, hordered.2⟩
  · have hselected : OrderedBy (fun a b => a.priority ≤ b.priority)
        (t.select fun _ => true) (order.sort t.rows) := by
      rw [hall]
      exact hordered
    exact KeyedTable.nodup_map_of_orderedBy hselected fun _ _ _ _ heq => heq
  · intro rule
    rw [← KeyedTable.mem_iff_find, hordered.1.mem_iff, Table.mem_rows]

/-- After any sequence of statements on the rules, which is what any interleaving of
    requests amounts to, the table holds for each id the rule last written and not deleted
    since; `list_acl_rules` lists these rules, each once, by priority; and `delete_acl_rule`
    tells whether there is a rule to delete, and afterwards there is none. -/
theorem rules_refine_policy (order : RuleOrder) (statements : List RuleStatement) (id : Int64) :
    let t := run (fun t statement => (handle order statement t).2) (Table.empty _) statements
    let policy := run Policy.step (fun _ => none) statements
    KeyedTable.find t = policy ∧
      (∃ listed, exec (handle order) listAclRules t = (.ok listed, t) ∧ policy.Lists listed) ∧
      ∃ rest, exec (handle order) (deleteAclRule id) t = (.ok (policy id).isSome, rest) ∧
        KeyedTable.find rest = Function.update policy id none := by
  intro t policy
  have hpolicy : KeyedTable.find t = policy := find_run order (Table.empty _) statements
  obtain ⟨listed, hexec, hlists⟩ := exec_listAclRules order t
  refine ⟨hpolicy, ⟨listed, hexec, hpolicy ▸ hlists⟩, t.delete (fun r => r.id = id), ?_, ?_⟩
  · show (Except.ok (decide (0 < t.count fun r => r.id = id)), t.delete fun r => r.id = id) = _
    have hcount : decide (0 < t.count fun r => r.id = id) = (policy id).isSome := by
      rw [← hpolicy, Bool.eq_iff_iff, decide_eq_true_iff, KeyedTable.count_key,
        Option.isSome_iff_ne_none]
    rw [hcount]
  · rw [← hpolicy]
    exact KeyedTable.find_delete_key t id

end ConnectAlso.Control.AclRules
