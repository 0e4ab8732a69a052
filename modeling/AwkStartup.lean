import AwkStartup.Main
import AwkStartup.Proofs.CommandLine.Rounds
import AwkStartup.Proofs.Number.LeadingInteger
import AwkStartup.Proofs.Text.Offsets
import AwkStartup.Proofs.CommandLine.Pieces
import AwkStartup.Proofs.CommandLine.PieceOffsets
import AwkStartup.Proofs.CommandLine.Applying
import AwkStartup.Proofs.CommandLine.PieceReading
import AwkStartup.Proofs.CommandLine.Quotation
import AwkStartup.Proofs.CommandLine.PieceEnding
import AwkStartup.Proofs.CommandLine.Items
import AwkStartup.Proofs.CommandLine.Keywords
import AwkStartup.Proofs.CommandLine.Faults
import AwkStartup.Proofs.SeparatorAgreement
import AwkStartup.Proofs.CommandLine.Arguments
import AwkStartup.Proofs.CommandLine.Roles
import AwkStartup.Proofs.CommandLine.Shifting
import AwkStartup.Proofs.CommandLine.Joining
import AwkStartup.Proofs.CommandLine.Policies
import AwkStartup.Proofs.CommandLine.Accesses
import AwkStartup.Proofs.CommandLine.Bindings
import AwkStartup.Proofs.CommandLine.Repetition
import AwkStartup.Proofs.CommandLine.SkippedOptions
import AwkStartup.Proofs.Seeding
import AwkStartup.Proofs.ArrayRegistry
import AwkStartup.Proofs.ArgumentListing
import AwkStartup.Proofs.OptionalParts
import AwkStartup.Proofs.BrokenConfiguration
import AwkStartup.Proofs.CommandLine.GroupTreatment
import AwkStartup.Proofs.CommandLine.FullSpelling
import AwkStartup.Proofs.CharacterSeparators
import AwkStartup.Proofs.Text.EscapeLocality
import AwkStartup.Proofs.Text.Spellings
import AwkStartup.Proofs.Value.CheckedCells
import AwkStartup.Proofs.CommandLine.Assignments
import AwkStartup.Proofs.Value.CanonicalSpellings
import AwkStartup.Proofs.Value.TextMap
import AwkStartup.Proofs.CommandLine.AppliedPieces
import AwkStartup.Proofs.InterpreterSettings
import AwkStartup.Proofs.ProgramLoading
import AwkStartup.Proofs.EnvironmentViews
import AwkStartup.Proofs.CommandLine.Candidates
import AwkStartup.Proofs.Text.Lines
import AwkStartup.Proofs.ProgramListing
import AwkStartup.Proofs.Toml.SpelledIntegers
import AwkStartup.Proofs.BinmodeSources
import AwkStartup.Proofs.CommandLine.GroupNumbers
