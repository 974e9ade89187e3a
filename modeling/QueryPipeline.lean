import QueryPipeline.Crud.View
import QueryPipeline.Mongo
import QueryPipeline.Registry.Request
import QueryPipeline.Proofs.Isolation
import QueryPipeline.Proofs.Balance
import QueryPipeline.Proofs.FlatStore
import QueryPipeline.Proofs.Counting
import QueryPipeline.Proofs.Copies
import QueryPipeline.Proofs.Cap
import QueryPipeline.Proofs.Reuse
import QueryPipeline.Proofs.Operators
import QueryPipeline.Proofs.NormalForm
import QueryPipeline.Proofs.Strictness
import QueryPipeline.Proofs.Conflicts
import QueryPipeline.Proofs.Leniency
import QueryPipeline.Proofs.Shape
import QueryPipeline.Proofs.Pagination
import QueryPipeline.Proofs.Substitution
import QueryPipeline.Proofs.Placeholders
import QueryPipeline.Proofs.Confinement
import QueryPipeline.Proofs.Rejections
import QueryPipeline.Proofs.Configs
import QueryPipeline.Proofs.Defaults
import QueryPipeline.Proofs.Omissions
import QueryPipeline.Proofs.Skipping
import QueryPipeline.Proofs.SortSections
import QueryPipeline.Proofs.Conjunction
import QueryPipeline.Proofs.Deletions
import QueryPipeline.Proofs.Updates
import QueryPipeline.Proofs.Numerals
import QueryPipeline.Proofs.Patterns
import QueryPipeline.Proofs.StoreFailures
import QueryPipeline.Proofs.PlaceholderTexts
import QueryPipeline.Proofs.IntegerReaders
import QueryPipeline.Proofs.JsonNumbers
import QueryPipeline.Proofs.JsonTexts
import QueryPipeline.Proofs.JsonValues
import QueryPipeline.Proofs.KeyOrder
import QueryPipeline.Proofs.QueryTexts
