import SchemaExtraction.Engine.Markup
import SchemaExtraction.Engine.Structured
import SchemaExtraction.Extraction.Builtin
import SchemaExtraction.Extraction.Hoisting
import SchemaExtraction.Extraction.RequestWire
import SchemaExtraction.Extraction.SettingsText
import SchemaExtraction.Filter.Recorder
import SchemaExtraction.Filter.Registry
import SchemaExtraction.Value.Template
import SchemaExtraction.Proofs.Extraction.AbsentSteps
import SchemaExtraction.Proofs.Extraction.Agreement
import SchemaExtraction.Proofs.Extraction.Alternation
import SchemaExtraction.Proofs.Extraction.CallOrder
import SchemaExtraction.Proofs.Extraction.Context
import SchemaExtraction.Proofs.Extraction.Counts
import SchemaExtraction.Proofs.Extraction.Elements
import SchemaExtraction.Proofs.Extraction.Elementwise
import SchemaExtraction.Proofs.Extraction.Fallbacks
import SchemaExtraction.Proofs.Extraction.FieldRemoval
import SchemaExtraction.Proofs.Extraction.FilterErasure
import SchemaExtraction.Proofs.Extraction.FilterKey
import SchemaExtraction.Proofs.Extraction.Lifecycle
import SchemaExtraction.Proofs.Extraction.Merging
import SchemaExtraction.Proofs.Extraction.Redaction
import SchemaExtraction.Proofs.Extraction.ScopeUnion
import SchemaExtraction.Proofs.Extraction.SettingsText
import SchemaExtraction.Proofs.Extraction.Shape
import SchemaExtraction.Proofs.Extraction.Soundness
import SchemaExtraction.Proofs.Filter.Dates
import SchemaExtraction.Proofs.Filter.Fields
import SchemaExtraction.Proofs.Filter.Numbers
import SchemaExtraction.Proofs.Filter.Priorities
import SchemaExtraction.Proofs.Filter.Registrations
import SchemaExtraction.Proofs.Filter.SharedLogs
import SchemaExtraction.Proofs.Filter.Splitting
import SchemaExtraction.Proofs.Filter.Strictness
import SchemaExtraction.Proofs.Markup.Cleaning
import SchemaExtraction.Proofs.Markup.Properties
import SchemaExtraction.Proofs.Markup.Removal
import SchemaExtraction.Proofs.Markup.SelectorLists
import SchemaExtraction.Proofs.Markup.Survivors
import SchemaExtraction.Proofs.Markup.Unselecting
import SchemaExtraction.Proofs.Number.Integers
import SchemaExtraction.Proofs.Number.Rounding
import SchemaExtraction.Proofs.Schema.Grammar
import SchemaExtraction.Proofs.Schema.Order
import SchemaExtraction.Proofs.Schema.RoundTrip
import SchemaExtraction.Proofs.Schema.Spelling
import SchemaExtraction.Proofs.Time.Calendar
import SchemaExtraction.Proofs.Time.Reading
import SchemaExtraction.Proofs.Time.Written
import SchemaExtraction.Proofs.Value.Absorption
import SchemaExtraction.Proofs.Value.Addresses
import SchemaExtraction.Proofs.Value.DeepMerge
import SchemaExtraction.Proofs.Value.Joining
import SchemaExtraction.Proofs.Value.Paths
import SchemaExtraction.Proofs.Value.Presence
import SchemaExtraction.Proofs.Value.Sums
import SchemaExtraction.Proofs.Value.Templates
