import ModelForge.Cli.Main
import ModelForge.Files.Disk
import ModelForge.Metamodel.Writer
import ModelForge.Output.Fault
import ModelForge.Proofs.Aliases
import ModelForge.Proofs.BalancedUnits
import ModelForge.Proofs.Boxing
import ModelForge.Proofs.BrokenLines
import ModelForge.Proofs.DecoratorLines
import ModelForge.Proofs.DirectoryLoading
import ModelForge.Proofs.FieldAttributes
import ModelForge.Proofs.HookText
import ModelForge.Proofs.ImportLines
import ModelForge.Proofs.Independence
import ModelForge.Proofs.InheritedMembers
import ModelForge.Proofs.KnownKinds
import ModelForge.Proofs.ManifestUnits
import ModelForge.Proofs.OpenUnits
import ModelForge.Proofs.OwnKeys
import ModelForge.Proofs.PrintedUnits
import ModelForge.Proofs.QuotedTexts
import ModelForge.Proofs.RejectedRuns
import ModelForge.Proofs.ReservedWords
import ModelForge.Proofs.RunsInTurn
import ModelForge.Proofs.Scanning
import ModelForge.Proofs.Sessions
import ModelForge.Proofs.Spelling
import ModelForge.Proofs.TypeNames
import ModelForge.Proofs.UntouchedSinks
import ModelForge.Proofs.WalkSteps
import ModelForge.Proofs.WrittenForm
