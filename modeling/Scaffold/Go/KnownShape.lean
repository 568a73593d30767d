import Scaffold.Go.ResolvedType

/-! The shapes of defined types in other packages that signatures use most. -/

namespace Scaffold.Go

/-- Types of the standard packages with the shapes behind them. -/
def knownShapes : List (String × String × Shape) :=
  [("time", "Time", .struct),
    ("sync", "Mutex", .struct),
    ("sync", "RWMutex", .struct),
    ("sync", "WaitGroup", .struct),
    ("sync", "Once", .struct),
    ("strings", "Builder", .struct),
    ("strings", "Reader", .struct),
    ("bytes", "Buffer", .struct),
    ("net/http", "Request", .struct),
    ("net/http", "Client", .struct),
    ("net/url", "URL", .struct),
    ("time", "Duration", .basic "int64"),
    ("time", "Month", .basic "int"),
    ("time", "Weekday", .basic "int"),
    ("os", "FileMode", .basic "uint32"),
    ("io/fs", "FileMode", .basic "uint32"),
    ("context", "Context", .nillable),
    ("context", "CancelFunc", .nillable),
    ("io", "Reader", .nillable),
    ("io", "Writer", .nillable),
    ("io", "ReadCloser", .nillable),
    ("io", "ReadWriter", .nillable),
    ("io", "WriteCloser", .nillable),
    ("fmt", "Stringer", .nillable),
    ("net/http", "Handler", .nillable),
    ("net/http", "HandlerFunc", .nillable),
    ("net/http", "ResponseWriter", .nillable),
    ("net/http", "Header", .nillable)]

/-- The shape of a type of another package, unknown unless the type is a listed one. -/
def knownShape (path name : String) : Shape :=
  let listed := knownShapes.find? fun (listedPath, listedName, _) =>
    listedPath == path && listedName == name
  match listed with
  | some (_, _, shape) => shape
  | none => .unknown

end Scaffold.Go
