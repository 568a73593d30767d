import Scaffold.Cli.Disk
import Scaffold.Main
import Scaffold.Proofs.FilePath
import Scaffold.Proofs.Go.Breaks
import Scaffold.Proofs.Go.File
import Scaffold.Proofs.Go.Written
import Scaffold.Proofs.Imports.Block
import Scaffold.Proofs.Imports.Merge
import Scaffold.Proofs.Imports.Room
import Scaffold.Proofs.Keyed
import Scaffold.Proofs.Numbering
import Scaffold.Proofs.Test.Addition
import Scaffold.Proofs.Test.Bound
import Scaffold.Proofs.Test.Qualifier
import Scaffold.Proofs.Test.Draft
import Scaffold.Proofs.Test.Planned
import Scaffold.Proofs.Test.Fields
import Scaffold.Proofs.Test.Shown
import Scaffold.Proofs.Go.Identity
import Scaffold.Proofs.Go.Lengths
import Scaffold.Proofs.Test.Lengths
import Scaffold.Proofs.Text.Weave
import Scaffold.Proofs.Go.Aliases
import Scaffold.Proofs.Go.Functions
import Scaffold.Proofs.Go.Undefined
import Scaffold.Proofs.Imports.Apart
import Scaffold.Proofs.Imports.Formatted
import Scaffold.Proofs.Go.FileOrder
import Scaffold.Proofs.Test.Valid
import Scaffold.Proofs.Test.Prepared
import Scaffold.Proofs.AbsolutePath
import Scaffold.Proofs.Test.Visible
import Scaffold.Proofs.Cli.System
import Scaffold.Proofs.Cli.Agreement
import Scaffold.Proofs.Go.Faithful
import Scaffold.Proofs.Text.Position
import Scaffold.Proofs.Text.Splice
import Scaffold.Proofs.Go.ImportPath
import Scaffold.Proofs.Go.Dependencies
import Scaffold.Proofs.Go.TypeParams
import Scaffold.Proofs.Test.Closed
import Scaffold.Proofs.Test.Located
import Scaffold.Proofs.Test.Bindings
import Scaffold.Proofs.Go.AliasTargets
import Scaffold.Proofs.Test.SelfContained
import Scaffold.Proofs.Test.Shadowed
import Scaffold.Proofs.Test.Numbered
import Scaffold.Proofs.Imports.Canonical
import Scaffold.Proofs.Go.Shapes
import Scaffold.Proofs.Go.ZeroForms
import Scaffold.Proofs.Imports.Additions
import Scaffold.Proofs.Go.ModuleFile
import Scaffold.Proofs.Test.Callable
import Scaffold.Proofs.Test.Notice
import Scaffold.Proofs.Test.Blocks
import Scaffold.Proofs.Go.Directive
