import RecordSql.Config
import RecordSql.Samples
import RecordSql.Proofs.Conditions
import RecordSql.Proofs.MissingWhere
import RecordSql.Proofs.Placeholders
import RecordSql.Proofs.TwoRuns
import RecordSql.Proofs.Additions
import RecordSql.Proofs.MergeTable
import RecordSql.Proofs.Cache.Calls
import RecordSql.Proofs.Cache.Termination
import RecordSql.Proofs.Cache.Resolved
import RecordSql.Proofs.Cache.Instances
import RecordSql.Proofs.Cache.AtRest
import RecordSql.Proofs.Cache.ParseOrder
import RecordSql.Proofs.Cache.FailedCalls
import RecordSql.Proofs.Cache.Pairings
import RecordSql.Proofs.RowText
import RecordSql.Proofs.RelatedRows
import RecordSql.Proofs.Complement
import RecordSql.Proofs.KeptWhole
import RecordSql.Proofs.KeyColumns
import RecordSql.Proofs.JoinTables
import RecordSql.Proofs.Tables.OtherTable
import RecordSql.Proofs.Names
import RecordSql.Proofs.EmbeddedKeys
import RecordSql.Proofs.Owners
import RecordSql.Proofs.PrimaryKeys
import RecordSql.Proofs.Identifiers.Restored
import RecordSql.Proofs.Identifiers.Respelled
import RecordSql.Proofs.Identifiers.DerivedColumns
import RecordSql.Proofs.Identifiers.DatabaseNames
import RecordSql.Proofs.Identifiers.ConstraintNames
import RecordSql.Proofs.GuessedSides
import RecordSql.Proofs.WholeKeys
import RecordSql.Proofs.ForeignKeys
import RecordSql.Proofs.StoredFields
import RecordSql.Proofs.Flattening
import RecordSql.Proofs.Increments
import RecordSql.Proofs.UniqueColumns
import RecordSql.Proofs.KeyValues
import RecordSql.Proofs.Emptiness
import RecordSql.Proofs.ConditionOrder
import RecordSql.Proofs.Coalescing
import RecordSql.Proofs.JoinKeys
import RecordSql.Proofs.DoubleNegation
import RecordSql.Proofs.NamesInPlace
import RecordSql.Proofs.DanglingKeywords
import RecordSql.Proofs.CaseBranches
import RecordSql.Proofs.RowLimits
import RecordSql.Proofs.OmittedColumns
import RecordSql.Proofs.SplitBuilds
import RecordSql.Proofs.QuotedNames
import RecordSql.Proofs.Literals
import RecordSql.Proofs.ShownValues
import RecordSql.Proofs.EditedTags
import RecordSql.Proofs.IntegerDefaults
import RecordSql.Proofs.TableExpressions
