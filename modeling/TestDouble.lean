import TestDouble.Token.Stream
import TestDouble.Unicode.Alphabetic
import TestDouble.Text.Quoted
import TestDouble.Text.Lines
import TestDouble.Error
import TestDouble.Cursor
import TestDouble.CompilationUnit
import TestDouble.Block.Reader
import TestDouble.TypeRef.Reader
import TestDouble.Declaration.Reader
import TestDouble.CompilationUnit.Reader
import TestDouble.Walk.Outline
import TestDouble.Walk.Digest
import TestDouble.Subclass.Rendering
import TestDouble.Mock
import TestDouble.Generation
import TestDouble.CommandLine.Run
import TestDouble.Main
import TestDouble.Proofs.Tiling
import TestDouble.Proofs.TypeInverse
import TestDouble.Proofs.ReadingSafety
import TestDouble.Proofs.ReadBack
import TestDouble.Proofs.Counterparts
import TestDouble.Proofs.TokensDecide
import TestDouble.Proofs.DeclarationEcho
import TestDouble.Proofs.GeneratedView
import TestDouble.Proofs.Grafts
import TestDouble.Proofs.BodiesApart
import TestDouble.Proofs.BlockTokens
import TestDouble.Proofs.ReplayedBodies
import TestDouble.Proofs.EnvironmentNames
import TestDouble.Proofs.SpanNesting
import TestDouble.Proofs.Concatenation
import TestDouble.Proofs.KeptUnits
import TestDouble.Proofs.TemplateParts
import TestDouble.Proofs.StringLiterals
import TestDouble.Proofs.Erasure
import TestDouble.Proofs.Initializers
import TestDouble.Proofs.TextBlocks
import TestDouble.Proofs.LocalNames
import TestDouble.Proofs.TypeHeaders
import TestDouble.Proofs.MockAnnotations
import TestDouble.Proofs.FragmentSpans
import TestDouble.Proofs.SpanCounts
import TestDouble.Proofs.DeclaratorLists
import TestDouble.Proofs.AnnotationTexts
import TestDouble.Proofs.Violations
import TestDouble.Proofs.QualifierOrder
import TestDouble.Proofs.LeafOrder
import TestDouble.Proofs.LocalErrors
import TestDouble.Proofs.BlockComments
import TestDouble.Proofs.TypeLiterals
