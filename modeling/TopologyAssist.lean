import TopologyAssist.Main
import TopologyAssist.Proofs.Acceptance
import TopologyAssist.Proofs.Certainty
import TopologyAssist.Proofs.CommentText
import TopologyAssist.Proofs.FieldEvidence
import TopologyAssist.Proofs.Requests
import TopologyAssist.Proofs.Stability
import TopologyAssist.Proofs.Tail
import TopologyAssist.Session
import TopologyAssist.Proofs.WellFormed
import TopologyAssist.Proofs.Declarations
import TopologyAssist.Proofs.Tokens
import TopologyAssist.Proofs.FieldHover
import TopologyAssist.Proofs.BlockContent
import TopologyAssist.Proofs.Positions
import TopologyAssist.Proofs.TableOrder
import TopologyAssist.Proofs.Outlines
import TopologyAssist.Proofs.LineWise
import TopologyAssist.Proofs.Indexes
import TopologyAssist.Proofs.LastWriter
import TopologyAssist.Proofs.WrittenPositions
import TopologyAssist.Proofs.TokenFit
