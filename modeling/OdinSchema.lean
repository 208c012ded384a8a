import OdinSchema.Catalog.Basic
import OdinSchema.Catalog.Field
import OdinSchema.Catalog.File
import OdinSchema.Catalog.Message
import OdinSchema.Declaration.Field
import OdinSchema.Declaration.Message
import OdinSchema.Declaration.Oneof
import OdinSchema.Declaration.Plan
import OdinSchema.Descriptor
import OdinSchema.Descriptor.Override
import OdinSchema.Descriptor.Reading
import OdinSchema.Descriptor.Writing
import OdinSchema.Diagnostic
import OdinSchema.Dictionary
import OdinSchema.Draft
import OdinSchema.Event
import OdinSchema.Generation
import OdinSchema.Main
import OdinSchema.Name
import OdinSchema.Operation
import OdinSchema.Response
import OdinSchema.Schema
import OdinSchema.Session
import OdinSchema.Settings
import OdinSchema.Settings.ParameterList
import OdinSchema.Source
import OdinSchema.Spelling
import OdinSchema.Text.Blank
import OdinSchema.Text.Case
import OdinSchema.Text.Case.Context
import OdinSchema.Text.Case.Lower
import OdinSchema.Text.Case.Run
import OdinSchema.Text.Case.Upper
import OdinSchema.Text.Digit
import OdinSchema.Text.Printable
import OdinSchema.Text.Quote
import OdinSchema.Text.Stretch
import OdinSchema.Text.Utf8
import OdinSchema.Tool
import OdinSchema.Tool.Arguments
import OdinSchema.Tool.FileTree
import OdinSchema.Tool.Path
import OdinSchema.Verbatim
import OdinSchema.Wire.Content
import OdinSchema.Wire.Record
import OdinSchema.Wire.Varint
import OdinSchema.Proofs.Dictionary
import OdinSchema.Proofs.Loading
import OdinSchema.Proofs.AllOrNothing
import OdinSchema.Proofs.DescriptorTree
import OdinSchema.Proofs.Independence
import OdinSchema.Proofs.AliasSection
import OdinSchema.Proofs.Provenance
import OdinSchema.Proofs.VariantClash
import OdinSchema.Proofs.Address
import OdinSchema.Proofs.VariantConfusion
import OdinSchema.Proofs.StructBody
import OdinSchema.Proofs.Checks
import OdinSchema.Proofs.ErrorLocation
import OdinSchema.Proofs.References
import OdinSchema.Proofs.Declarations
import OdinSchema.Proofs.MessageOrder
import OdinSchema.Proofs.Listing
import OdinSchema.Proofs.SourceReading
import OdinSchema.Proofs.Attempts
import OdinSchema.Proofs.LoadFaults
import OdinSchema.Proofs.Acceptance
import OdinSchema.Proofs.Permanence
import OdinSchema.Proofs.TopLevelNames
import OdinSchema.Proofs.MemberNames
import OdinSchema.Proofs.Answering
import OdinSchema.Proofs.WireFormat
import OdinSchema.Proofs.OptionDecoding
import OdinSchema.Proofs.ResponseDecoding
import OdinSchema.Proofs.OneofEmission
import OdinSchema.Proofs.SourceLocations
import OdinSchema.Proofs.FieldLines
import OdinSchema.Proofs.LoadedMessages
import OdinSchema.Proofs.FieldCoherence
import OdinSchema.Proofs.MapRecognition
import OdinSchema.Proofs.ParameterList
import OdinSchema.Proofs.SettingsChecks
import OdinSchema.Proofs.WholeSet
import OdinSchema.Proofs.FileTree
import OdinSchema.Proofs.Flattening
import OdinSchema.Proofs.Writing
import OdinSchema.Proofs.Containment
