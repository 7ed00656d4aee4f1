import Carryforth.Acp.Board
import Carryforth.Acp.Fairness
import Carryforth.Acp.Usage
import Carryforth.Agent.Gate
import Carryforth.Agent.HandoffPrompt
import Carryforth.Audit.Chain
import Carryforth.Document.Store
import Carryforth.Engram.Event
import Carryforth.Engram.Refs
import Carryforth.Git.Advertisement
import Carryforth.Git.Policy
import Carryforth.Git.Report
import Carryforth.GitSign.Canonical
import Carryforth.Mem.Edit
import Carryforth.Mesh.Admission
import Carryforth.Mesh.Connections
import Carryforth.Mesh.Gossip
import Carryforth.ProjectView.V3.Authority
import Carryforth.ProjectView.V3.Canonical
import Carryforth.ProjectView.V3.Initialize
import Carryforth.Relay.Eviction
import Carryforth.RoleContinuity.Cutover
import Carryforth.RoleContinuity.OpenProposal
import Carryforth.RoleContinuity.Replay
import Carryforth.Semantic.Accumulator
import Carryforth.Semantic.Environment
import Carryforth.Semantic.Root
import Carryforth.Semantic.Slice
import Carryforth.Workflow.Template
import Carryforth.Workflow.Ticks
