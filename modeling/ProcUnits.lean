import ProcUnits.Main
import ProcUnits.Program
import ProcUnits.Proofs.Converter
import ProcUnits.Proofs.DryStart
import ProcUnits.Proofs.Install.Capability
import ProcUnits.Proofs.Install.Drafts
import ProcUnits.Proofs.Install.Failures
import ProcUnits.Proofs.Install.Isolation
import ProcUnits.Proofs.Install.Wanted
import ProcUnits.Proofs.Precedence
import ProcUnits.Proofs.Procfile.Detection
import ProcUnits.Proofs.Procfile.Order
import ProcUnits.Proofs.Procfile.Printing
import ProcUnits.Proofs.Procfile.Retabbed
import ProcUnits.Proofs.Procfile.Stages
import ProcUnits.Proofs.Procfile.Typing
import ProcUnits.Proofs.Replacement
import ProcUnits.Proofs.UnitFile.Conversion
import ProcUnits.Proofs.UnitFile.Directory
import ProcUnits.Proofs.UnitFile.Files
import ProcUnits.Proofs.UnitFile.Numbered
import ProcUnits.Proofs.UnitFile.Packing
import ProcUnits.Proofs.UnitFile.Signals
import ProcUnits.Proofs.UnitFile.Unset
import ProcUnits.Proofs.Validation.Conversion
import ProcUnits.Proofs.Validation.Defaults
import ProcUnits.Proofs.Validation.Quoting
import ProcUnits.Proofs.Variables.Text
