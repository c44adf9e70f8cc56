import DotWriter.CommandLine.Run
import DotWriter.Graph.Multigraph
import DotWriter.Main
import DotWriter.Proofs.Attribute.History
import DotWriter.Proofs.Graph.Growth
import DotWriter.Workspace.Graphs
import DotWriter.Workspace.Growth
import DotWriter.Proofs.Graph.Opening
import DotWriter.Proofs.Graph.Store
import DotWriter.Proofs.Graph.Run
import DotWriter.Proofs.Graph.DisplayName
import DotWriter.Proofs.Label.Alphabet
import DotWriter.Proofs.Label.Depth
import DotWriter.Proofs.Label.Markup
import DotWriter.Proofs.Label.Plan
import DotWriter.Proofs.Label.RoundTrip
import DotWriter.Proofs.Document.Token
import DotWriter.Proofs.Document.Lexer
import DotWriter.Proofs.Document.Parser
import DotWriter.Proofs.Graph.Tables
import DotWriter.Proofs.Document.Tree
import DotWriter.Proofs.Document.RoundTrip
import DotWriter.Proofs.Value.Quoted
import DotWriter.Proofs.Value.Alphabet
import DotWriter.Proofs.Graph.Described
import DotWriter.Proofs.Attribute.Enclosed
import DotWriter.Proofs.Double.Nearest
import DotWriter.Proofs.Double.Fixed
import DotWriter.Proofs.Color.Hsv
import DotWriter.Proofs.Value.Names
import DotWriter.Proofs.Attribute.ReadBack
import DotWriter.Proofs.Color.Reading
import DotWriter.Proofs.Graph.NodeIdentity
import DotWriter.Proofs.Document.Defaults
import DotWriter.Proofs.Value.Faults
import DotWriter.Proofs.Attribute.Faults
import DotWriter.Proofs.Graph.Reported
import DotWriter.Proofs.Graph.Registry
import DotWriter.Proofs.Graph.Loading
import DotWriter.Proofs.Graph.Export
import DotWriter.Proofs.Label.Completeness
import DotWriter.Proofs.Attribute.Coercion
import DotWriter.Proofs.Color.Construction
import DotWriter.Proofs.Value.Construction
import DotWriter.Proofs.Graph.Building
import DotWriter.Proofs.Double.Written
import DotWriter.Proofs.Color.Weights
import DotWriter.Proofs.Value.Arithmetic
import DotWriter.Proofs.Color.History
import DotWriter.Proofs.Color.Hex
import DotWriter.Proofs.Color.Sectors
import DotWriter.Proofs.Attribute.Bounds
import DotWriter.Proofs.Graph.ClusterName
import DotWriter.Proofs.Label.Encoding
