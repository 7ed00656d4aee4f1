import Carryforth.RoleContinuity.State

/-!
# Role continuity: outcomes

The changed entity heads that one reduction hands to the database, and how they are computed: the
entity maps before and after are compared key by key.
-/

namespace Carryforth

namespace RoleContinuity

/-- Entity discriminator of projection coordinates. -/
inductive RoleContinuityEntity
  | role
  | roleAssignmentProposal
  | roleAssignment
  | workCommitment
  | roleCheckpoint
  | roleHandoff
deriving DecidableEq, Repr

instance : Ord RoleContinuityEntity := ⟨compareOn RoleContinuityEntity.ctorIdx⟩

instance : Std.TransOrd RoleContinuityEntity :=
  inferInstanceAs (Std.TransCmp (compareOn RoleContinuityEntity.ctorIdx))

instance : Std.LawfulEqOrd RoleContinuityEntity where
  compare_self {a} := Std.ReflOrd.compare_self (a := a.ctorIdx)
  eq_of_compare := by
    intro a b h
    have same : a.ctorIdx = b.ctorIdx := Std.LawfulEqOrd.eq_of_compare h
    cases a <;> cases b <;> first | rfl | cases same

/-- The coordinate of an entity: its kind, then its identifier. -/
structure EntityKey where
  entity : RoleContinuityEntity
  id : Uuid
deriving DecidableEq, Repr

instance : Ord EntityKey := ⟨compareLex (compareOn (·.entity)) (compareOn (·.id))⟩

instance : Std.TransOrd EntityKey :=
  inferInstanceAs (Std.TransCmp (compareLex (compareOn EntityKey.entity) (compareOn EntityKey.id)))

instance : Std.LawfulEqOrd EntityKey where
  compare_self {a} := compareLex_eq_eq.2
    ⟨Std.ReflOrd.compare_self (a := a.entity), Std.ReflOrd.compare_self (a := a.id)⟩
  eq_of_compare := by
    intro a b h
    obtain ⟨entity, id⟩ := compareLex_eq_eq.1 h
    cases a
    cases b
    exact congrArg₂ EntityKey.mk (Std.LawfulEqOrd.eq_of_compare entity)
      (Std.LawfulEqOrd.eq_of_compare id)

inductive RoleContinuityChange
  | role (role : RoleDefinition)
  | proposal (proposal : RoleAssignmentProposal)
  | assignment (assignment : RoleAssignment)
  | commitment (commitment : WorkCommitment)
  | checkpoint (checkpoint : RoleCheckpoint)
  | handoff (handoff : RoleHandoff)
deriving DecidableEq, Repr

namespace RoleContinuityChange

def entityType : RoleContinuityChange → RoleContinuityEntity
  | .role _ => .role
  | .proposal _ => .roleAssignmentProposal
  | .assignment _ => .roleAssignment
  | .commitment _ => .workCommitment
  | .checkpoint _ => .roleCheckpoint
  | .handoff _ => .roleHandoff

def entityId : RoleContinuityChange → Uuid
  | .role r => r.roleId
  | .proposal p => p.proposalId
  | .assignment a => a.assignmentId
  | .commitment c => c.commitmentId
  | .checkpoint c => c.checkpointId
  | .handoff h => h.handoffId

def entityRevision : RoleContinuityChange → Nat
  | .role r => r.objectRevision
  | .proposal p => p.entityRevision
  | .assignment a => a.entityRevision
  | .commitment c => c.entityRevision
  | .checkpoint c => c.entityRevision
  | .handoff h => h.entityRevision

def projectRevision : RoleContinuityChange → Nat
  | .role r => r.projectRevision
  | .proposal p => p.projectRevision
  | .assignment a => a.projectRevision
  | .commitment c => c.projectRevision
  | .checkpoint c => c.projectRevision
  | .handoff h => h.projectRevision

def key (change : RoleContinuityChange) : EntityKey := ⟨change.entityType, change.entityId⟩

end RoleContinuityChange

/-- What the database coordinator persists for one reduction. -/
structure RoleContinuityOutcome where
  projectRevision : Nat
  changes : List RoleContinuityChange
  workChanges : List WorkResponsibility
  membershipRoles : OrdMap PublicKey CommunityMemberRole
  endedCommitments : OrdMap Uuid (List Uuid)
deriving DecidableEq

namespace RoleContinuityState

def entityHeads (s : RoleContinuityState) : List RoleContinuityChange :=
  s.proposals.valueList.map .proposal ++ s.assignments.valueList.map .assignment ++
    s.commitments.valueList.map .commitment ++ s.checkpoints.valueList.map .checkpoint ++
    s.handoffs.valueList.map .handoff

/-- The entity heads of a state under their coordinates. -/
def entityMap (s : RoleContinuityState) : OrdMap EntityKey RoleContinuityChange :=
  OrdMap.overlay RoleContinuityChange.key ∅ s.entityHeads

end RoleContinuityState

def changedEntities (before after : OrdMap EntityKey RoleContinuityChange) :
    List RoleContinuityChange :=
  OrdMap.changed before after

def changedWorks (before after : OrdMap Uuid WorkResponsibility) : List WorkResponsibility :=
  OrdMap.changed before after

end RoleContinuity

end Carryforth
