import Scaffold.Proofs.Go.Settled
import Scaffold.Proofs.Order

/-! The order in which the files of a package are given decides on no more than the order of what is
found in them. -/

namespace Scaffold.Go

/-- Whether an error is that of a type, a function or a method declared again. -/
def Diagnostic.isRedeclaration (diagnostic : Diagnostic) : Bool :=
  match diagnostic.error with
  | .redeclared _ | .repeatedMethod _ _ => true
  | _ => false

section Types

variable {known : List (String × String)} {decls : TypeDecls × List Diagnostic}

/-- Whether a declaration declares a name. -/
def isNamed (type : SourceFile × TypeSpec) : Bool :=
  type.2.name != "_"

/-- Adding declarations reports nothing if no name that is not blank comes up again. -/
theorem addTypes_quiet_iff (types : List (SourceFile × TypeSpec)) :
    (addTypes known decls types).2 = [] ↔ decls.2 = [] ∧
      (∀ type ∈ types.filter isNamed, decls.1.declares type.2.name = false) ∧
      (types.filter isNamed).Pairwise fun first second => first.2.name ≠ second.2.name := by
  induction types generalizing decls with
  | nil => simp [addTypes]
  | cons type rest ih =>
    rw [addTypes, List.foldl_cons, ← addTypes, ih, TypeDecls.add]
    -- A blank type is dropped; any other is reported if it is declared, and held from then on.
    by_cases blank : type.2.name = "_"
    · simp [isNamed, blank]
    · rw [List.filter_cons_of_pos (by simpa [isNamed] using blank), if_neg (by simpa using blank),
        List.forall_mem_cons, List.pairwise_cons]
      by_cases held : (decls.1.lookup type.2.name).isSome = true
      · simp [held, TypeDecls.declares]
      · rw [if_neg held]
        have free : decls.1.declares type.2.name = false := eq_false_of_ne_true held
        simp only [declares_insertKeyed, Bool.or_eq_false_iff, beq_eq_false_iff_ne, free, true_and]
        constructor
        · rintro ⟨quiet, others, apart⟩
          exact ⟨quiet, fun later member => (others later member).2,
            fun later member => (others later member).1.symm, apart⟩
        · rintro ⟨quiet, others, first, apart⟩
          exact ⟨quiet, fun later member => ⟨(first later member).symm, others later member⟩, apart⟩

/-- Collecting reports nothing if no name that is not blank is declared twice. -/
theorem collect_quiet_iff (files : List SourceFile) :
    (TypeDecls.collect (scopedFiles known files)).2 = [] ↔
      ((declaredTypes files).filter isNamed).Pairwise
        fun first second => first.2.name ≠ second.2.name := by
  rw [collect_eq, addTypes_quiet_iff]
  simp [TypeDecls.declares]

/-- What is declared again is reported as such. -/
theorem isRedeclaration_addTypes (types : List (SourceFile × TypeSpec))
    (before : ∀ error ∈ decls.2, error.isRedeclaration = true) :
    ∀ error ∈ (addTypes known decls types).2, error.isRedeclaration = true := by
  induction types generalizing decls with
  | nil => exact before
  | cons type rest ih =>
    rw [addTypes, List.foldl_cons, ← addTypes]
    apply ih
    rw [TypeDecls.add]
    split
    · exact before
    · split
      · intro error member
        rcases List.mem_append.mp member with old | new
        · exact before error old
        · rw [List.mem_singleton.mp new]
          rfl
      · exact before

/-- Elements without repeats stay when repeats are left out. -/
theorem eraseDupsBy_of_pairwise {α : Type} {same : α → α → Bool} {xs : List α}
    (apart : xs.Pairwise fun first second => same second first = false) :
    xs.eraseDupsBy same = xs := by
  induction xs with
  | nil => rfl
  | cons x xs ih =>
    obtain ⟨first, apart⟩ := List.pairwise_cons.mp apart
    -- Nothing behind the first element repeats it, so nothing is left out.
    rw [List.eraseDupsBy_cons, List.filter_eq_self.mpr, ih apart]
    intro later member
    exact decide_eq_true (first later member)

/-- Without repeats, all declarations of names count. -/
theorem countedTypes_of_quiet {files : List SourceFile}
    (quiet : (TypeDecls.collect (scopedFiles known files)).2 = []) :
    countedTypes files = (declaredTypes files).filter isNamed := by
  refine eraseDupsBy_of_pairwise (((collect_quiet_iff files).mp quiet).imp fun apart => ?_)
  exact beq_false_of_ne apart.symm

/-- Lists in key order with the same entries are the same. -/
theorem eq_of_inKeyOrder {α : Type} {first second : List (String × α)} (perm : first.Perm second)
    (ordered : InKeyOrder first) (other : InKeyOrder second) : first = second :=
  perm.eq_of_pairwise (fun _ _ _ _ less more => absurd less (lt_asymm more)) ordered other

/-- Without repeats, the declarations of a package do not depend on the order of its files. -/
theorem collect_eq_of_perm {files others : List SourceFile} (perm : files.Perm others)
    (quiet : (TypeDecls.collect (scopedFiles known files)).2 = []) :
    TypeDecls.collect (scopedFiles known others) = TypeDecls.collect (scopedFiles known files) := by
  have types : ((declaredTypes files).filter isNamed).Perm
      ((declaredTypes others).filter isNamed) :=
    (perm.flatMap_right _).filter _
  -- Whether names are apart does not depend on the order either.
  have calm : (TypeDecls.collect (scopedFiles known others)).2 = [] := by
    rw [collect_quiet_iff] at quiet ⊢
    exact types.pairwise quiet fun apart => apart.symm
  have kept := collect_perm known others
  have first := collect_perm known files
  rw [countedTypes_of_quiet calm] at kept
  rw [countedTypes_of_quiet quiet] at first
  refine Prod.ext ?_ (calm.trans quiet.symm)
  exact eq_of_inKeyOrder (kept.trans ((types.map _).symm.trans first.symm))
    (inKeyOrder_collect known others) (inKeyOrder_collect known files)

end Types

section Keys

variable {decls : TypeDecls}

/-- A key is free behind another one if it is free in front of it and differs, or may be shared. -/
theorem isTaken_cons (earlier : List FuncKey) (first key : FuncKey) :
    key.isTaken decls (first :: earlier) = false ↔
      key.isTaken decls earlier = false ∧ (first = key → key.isShared = true) := by
  simp only [FuncKey.isTaken, List.contains_cons]
  cases key.isShared with
  | true => simp
  | false =>
    by_cases same : first = key
    · simp [same]
    · simp [same, Ne.symm same]

/-- No keys are taken if each is free at first, and none comes up again unless it may be shared. -/
theorem repeatsAmong_eq_nil_iff (earlier : List FuncKey) (keyed : List (FuncKey × Diagnostic)) :
    repeatsAmong decls earlier keyed = [] ↔
      (∀ claim ∈ keyed, claim.1.isTaken decls earlier = false) ∧
        keyed.Pairwise fun first second => first.1 = second.1 → second.1.isShared = true := by
  induction keyed generalizing earlier with
  | nil => simp [repeatsAmong]
  | cons claim rest ih =>
    obtain ⟨key, error⟩ := claim
    rw [repeatsAmong, List.append_eq_nil_iff, ih, List.forall_mem_cons, List.pairwise_cons]
    simp only [isTaken_cons]
    constructor
    · rintro ⟨free, others, apart⟩
      exact ⟨⟨by simpa using free, fun claim member => (others claim member).1⟩,
        fun claim member => (others claim member).2, apart⟩
    · rintro ⟨⟨free, others⟩, first, apart⟩
      exact ⟨by simp [free], fun claim member => ⟨others claim member, first claim member⟩, apart⟩

/-- Whether keys are taken does not depend on their order. -/
theorem repeatsAmong_eq_nil_of_perm {keyed others : List (FuncKey × Diagnostic)}
    (perm : keyed.Perm others) (none : repeatsAmong decls [] keyed = []) :
    repeatsAmong decls [] others = [] := by
  rw [repeatsAmong_eq_nil_iff] at none ⊢
  -- That two claims share a key is symmetric, so they may change places.
  refine ⟨fun claim member => none.1 claim (perm.mem_iff.mpr member), ?_⟩
  exact perm.pairwise none.2 fun shared same => same ▸ shared same.symm

/-- The errors for taken keys are those that the claims carry. -/
theorem mem_of_mem_repeatsAmong {earlier : List FuncKey} {keyed : List (FuncKey × Diagnostic)}
    {error : Diagnostic} (member : error ∈ repeatsAmong decls earlier keyed) :
    ∃ claim ∈ keyed, claim.2 = error := by
  induction keyed generalizing earlier with
  | nil => cases member
  | cons claim rest ih =>
    rw [repeatsAmong] at member
    rcases List.mem_append.mp member with here | later
    · split at here
      · exact ⟨claim, List.mem_cons_self, (List.mem_singleton.mp here).symm⟩
      · cases here
    · obtain ⟨other, among, same⟩ := ih later
      exact ⟨other, List.mem_cons_of_mem _ among, same⟩

/-- A claim carries the error that its key comes up again. -/
theorem isRedeclaration_claims {table : TypeTable}
    {aliases : List (String × Option ResolvedType)} {entries : List (FileScope × FuncDecl)} :
    ∀ claim ∈ claims table aliases entries, claim.2.isRedeclaration = true := by
  intro claim member
  obtain ⟨entry, _, found⟩ := List.mem_filterMap.mp member
  obtain ⟨⟨⟨base, name⟩, function⟩, _, rfl⟩ := Option.map_eq_some_iff.mp found
  cases base <;> rfl

end Keys

section Places

/-- If at most one element has a value, the first one found does not depend on the order. -/
theorem findSome?_eq_of_perm {α β : Type} {f : α → Option β} {xs ys : List α} (perm : xs.Perm ys)
    (one : xs.Pairwise fun first second => f first = none ∨ f second = none) :
    xs.findSome? f = ys.findSome? f := by
  induction perm with
  | nil => rfl
  | cons x _ ih => rw [List.findSome?_cons, List.findSome?_cons, ih (List.pairwise_cons.mp one).2]
  | swap x y rest =>
    -- Of the two elements that change places, one has no value.
    have apart := (List.pairwise_cons.mp one).1 x List.mem_cons_self
    simp only [List.findSome?_cons]
    rcases apart with none | none <;> rw [none]
  | trans first _ ih later =>
    exact (ih one).trans (later (first.pairwise one fun apart => apart.symm))

variable {table : TypeTable} {aliases : List (String × Option ResolvedType)} {scope : FileScope}
  {decl : FuncDecl}

theorem gives_resolveUnder (taken : FuncKey → Bool) (key : FuncKey) (receiver : Option Var)
    (typeParams : List String) :
    Gives (resolveUnder table taken scope decl key receiver typeParams)
      fun found => ∀ named ∈ found, named.2.file = scope.path := by
  have function : Gives (resolveFunction table scope decl receiver typeParams)
      fun function => function.file = scope.path :=
    (Gives.trivial _).bind fun _ _ => .pure rfl
  have named : Gives
      (do let function ← resolveFunction table scope decl receiver typeParams
          return some (key, function))
      fun found => ∀ named ∈ found, named.2.file = scope.path :=
    function.bind fun function same => .pure (by simpa using same)
  unfold resolveUnder
  split
  · exact (Gives.trivial _).bind fun _ _ => named
  · exact named

/-- A function stands in the file that declares it. -/
theorem file_of_alone {named : FuncKey × Function}
    (found : named ∈ (alone table aliases scope decl).1) : named.2.file = scope.path := by
  have gives : Gives (resolveOne table (fun _ => false) scope decl)
      fun found => ∀ named ∈ found, named.2.file = scope.path := by
    unfold resolveOne
    split
    · exact gives_resolveUnder _ _ _ _
    · refine (Gives.trivial _).bind fun accepted _ => ?_
      cases accepted with
      | none => exact .pure (by simp)
      | some found => exact gives_resolveUnder _ _ _ _
  exact gives ⟨aliases, []⟩ named found

/-- The functions that a file declares, each with the scope of the file. -/
def scopedFuncs (known : List (String × String)) (file : SourceFile) :
    List (FileScope × FuncDecl) :=
  file.funcDecls.map fun decl => (FileScope.ofFile known file, decl)

/-- A place is looked for in the file of its path only. -/
theorem findPlace_eq_none {known : List (String × String)} {file : SourceFile} {path : FilePath}
    (other : file.path.same path = false) (start : Nat) :
    (functionsAlone table aliases (scopedFuncs known file)).find?
      (fun function => function.file.same path && function.start == start) = none := by
  rw [List.find?_eq_none]
  intro function member
  obtain ⟨entry, among, named⟩ := List.mem_filterMap.mp member
  obtain ⟨decl, _, rfl⟩ := List.mem_map.mp among
  obtain ⟨found, alone, rfl⟩ := Option.map_eq_some_iff.mp named
  rw [file_of_alone alone, (ofFile_sees known file).path, other]
  simp

/-- In files with paths of their own, the function at a place does not depend on their order. -/
theorem findPlace_eq_of_perm {known : List (String × String)} {files others : List SourceFile}
    (perm : files.Perm others)
    (distinct : files.Pairwise fun first second => first.path.same second.path = false)
    (path : FilePath) (start : Nat) :
    (functionsAlone table aliases (files.flatMap (scopedFuncs known))).find?
        (fun function => function.file.same path && function.start == start) =
      (functionsAlone table aliases (others.flatMap (scopedFuncs known))).find?
        (fun function => function.file.same path && function.start == start) := by
  rw [functionsAlone, functionsAlone, List.filterMap_flatMap, List.filterMap_flatMap,
    List.find?_flatMap, List.find?_flatMap]
  -- At most one of two files has the path, so at most one has a function at the place.
  refine findSome?_eq_of_perm perm (distinct.imp fun {first second} apart => ?_)
  by_cases here : first.path.same path = true
  · refine .inr (findPlace_eq_none ?_ start)
    -- Both paths cannot be the one that is looked for.
    refine eq_false_of_ne_true fun there => ?_
    rw [FilePath.same, eq_of_beq here, eq_of_beq there, beq_self_eq_true] at apart
    cases apart
  · exact .inl (findPlace_eq_none (eq_false_of_ne_true here) start)

end Places

section Packages

/-- The functions that files declare, in source order. -/
def declaredFuncs (known : List (String × String)) (files : List SourceFile) :
    List (FileScope × FuncDecl) :=
  files.flatMap (scopedFuncs known)

variable {metadata : Metadata} {files others : List SourceFile}

/-- A package is what resolving its declarations and then its functions gives. -/
theorem ofFiles_eq (metadata : Metadata) (files : List SourceFile) :
    Package.ofFiles metadata files =
      let (decls, repeats) := TypeDecls.collect (scopedFiles metadata.deps files)
      let (functions, findings) := (resolveAll metadata.ref decls (shapeTable metadata.path)
        (declaredFuncs metadata.deps files)).run ⟨[], repeats⟩
      ⟨metadata, files, functions, findings.errors⟩ := by
  have entries : declaredFuncs metadata.deps files =
      (scopedFiles metadata.deps files).flatMap fun source =>
        source.2.funcDecls.map fun decl => (source.1, decl) := by
    rw [scopedFiles, List.flatMap_map]
    rfl
  rw [entries]
  rfl

@[simp] theorem ofFiles_metadata (metadata : Metadata) (files : List SourceFile) :
    (Package.ofFiles metadata files).metadata = metadata :=
  (congrArg Package.metadata (ofFiles_eq metadata files)).trans rfl

@[simp] theorem ofFiles_files (metadata : Metadata) (files : List SourceFile) :
    (Package.ofFiles metadata files).files = files :=
  (congrArg Package.files (ofFiles_eq metadata files)).trans rfl

/-- The definitions of a package resolved behind some errors, and what was found on the way. -/
def definitionsOf (metadata : Metadata) (decls : TypeDecls) (errors : List Diagnostic) :
    List (String × ResolvedType) × Findings :=
  (resolveDefinitions metadata.ref decls decls).run ⟨[], errors⟩

/-- What the functions of a package are resolved in. -/
def tableOf (metadata : Metadata) (decls : TypeDecls) (errors : List Diagnostic) : TypeTable :=
  ⟨metadata.ref, decls, shapeTable metadata.path (definitionsOf metadata decls errors).1⟩

/-- Files make up a package whose functions are each resolved by themselves, in one table. -/
structure IsSettled (metadata : Metadata) (files : List SourceFile) (decls : TypeDecls)
    (errors : List Diagnostic) : Prop where
  functions : (Package.ofFiles metadata files).functions =
    functionsAlone (tableOf metadata decls errors)
      (definitionsOf metadata decls errors).2.aliases (declaredFuncs metadata.deps files)
  errors : (Package.ofFiles metadata files).errors.Perm
    ((definitionsOf metadata decls errors).2.errors ++
      (repeatsAmong decls [] (claims (tableOf metadata decls errors)
          (definitionsOf metadata decls errors).2.aliases (declaredFuncs metadata.deps files)) ++
        errorsAlone (tableOf metadata decls errors)
          (definitionsOf metadata decls errors).2.aliases (declaredFuncs metadata.deps files)))

/-- When its declarations are resolved, each function of a package is resolved by itself. -/
theorem ofFiles_isSettled (metadata : Metadata) (files : List SourceFile) :
    IsSettled metadata files (TypeDecls.collect (scopedFiles metadata.deps files)).1
      (TypeDecls.collect (scopedFiles metadata.deps files)).2 := by
  have ordered := inKeyOrder_collect metadata.deps files
  have whole := ofFiles_eq metadata files
  generalize TypeDecls.collect (scopedFiles metadata.deps files) = collected at ordered whole ⊢
  obtain ⟨decls, repeats⟩ := collected
  have met : AllMet (tableOf metadata decls repeats).decls
      (definitionsOf metadata decls repeats).2.aliases :=
    allMet_resolveDefinitions metadata.ref ordered ⟨[], repeats⟩
  obtain ⟨settled, functions, added⟩ :=
    resolveFunctions_settled met (declaredFuncs metadata.deps files) []
  -- The functions are resolved in what the declarations have left behind.
  have ran : (resolveAll metadata.ref decls (shapeTable metadata.path)
      (declaredFuncs metadata.deps files)).run ⟨[], repeats⟩ = _ :=
    settled.run (definitionsOf metadata decls repeats).2.errors
  dsimp only at whole
  rw [ran] at whole
  refine ⟨?_, ?_⟩
  · rw [whole]
    exact functions
  · rw [whole]
    exact added.append_left _

/-- Packages that differ in nothing but the order of what they list. -/
structure Package.Reorders (first second : Package) : Prop where
  /-- What is wrong with each file as source text, whatever that is. -/
  faults : ∀ {ε : Type} (faults : SourceFile → List ε),
    (first.files.flatMap faults).Perm (second.files.flatMap faults)
  errors : first.errors.Perm second.errors
  functionAt? : ∀ path start, first.functionAt? path start = second.functionAt? path start
  plainFunctions : first.plainFunctions.Perm second.plainFunctions
  /-- Only functions of one name trade places. -/
  plainNames : first.plainFunctions.map Function.name = second.plainFunctions.map Function.name

/-- Functions by name have their names in order. -/
theorem byName_pairwise (functions : List Function) :
    ((Function.byName functions).map Function.name).Pairwise (· ≤ ·) := by
  have order : IsOrder fun first second : Function => decide (first.name ≤ second.name) := by
    refine ⟨fun first second => ?_, fun {first second third} before after => ?_⟩
    · simpa using le_total first.name second.name
    · exact decide_eq_true (le_trans (of_decide_eq_true before) (of_decide_eq_true after))
  exact List.pairwise_map.mpr
    ((sortOrdered_pairwise order functions).imp fun before => of_decide_eq_true before)

/-- Permuted functions are the same by name, up to the order of those with one name. -/
theorem byName_perm {first second : List Function} (perm : first.Perm second) :
    (Function.byName first).Perm (Function.byName second) ∧
      (Function.byName first).map Function.name = (Function.byName second).map Function.name := by
  have sorted : (Function.byName first).Perm (Function.byName second) :=
    ((sortOrdered_perm _ first).trans perm).trans (sortOrdered_perm _ second).symm
  exact ⟨sorted, (sorted.map _).eq_of_pairwise (fun _ _ _ _ => le_antisymm)
    (byName_pairwise first) (byName_pairwise second)⟩

/-- If nothing is reported as declared again, no type is declared twice. -/
theorem quiet_of_once
    (once : ∀ error ∈ (Package.ofFiles metadata files).errors, error.isRedeclaration = false) :
    (TypeDecls.collect (scopedFiles metadata.deps files)).2 = [] := by
  refine List.eq_nil_iff_forall_not_mem.mpr fun error member => ?_
  -- What is reported for types stays among the errors to the end.
  have grows : Grows (resolveDefinitions metadata.ref _ _) :=
    grows_resolveDefinitions (areDeclared_of_inKeyOrder (inKeyOrder_collect metadata.deps files))
  have kept := (grows ⟨[], (TypeDecls.collect (scopedFiles metadata.deps files)).2⟩).subset member
  have plain := once error
    ((ofFiles_isSettled metadata files).errors.mem_iff.mpr (List.mem_append_left _ kept))
  rw [collect_eq] at member
  rw [isRedeclaration_addTypes _ (by simp) error member] at plain
  cases plain

/-- If nothing is reported as declared again, no key of a function is taken. -/
theorem IsSettled.free {decls : TypeDecls} {errors : List Diagnostic}
    (settled : IsSettled metadata files decls errors)
    (once : ∀ error ∈ (Package.ofFiles metadata files).errors, error.isRedeclaration = false) :
    repeatsAmong decls [] (claims (tableOf metadata decls errors)
      (definitionsOf metadata decls errors).2.aliases
      (declaredFuncs metadata.deps files)) = [] := by
  refine List.eq_nil_iff_forall_not_mem.mpr fun error member => ?_
  have plain := once error
    (settled.errors.mem_iff.mpr (List.mem_append_right _ (List.mem_append_left _ member)))
  obtain ⟨claim, among, rfl⟩ := mem_of_mem_repeatsAmong member
  rw [isRedeclaration_claims claim among] at plain
  cases plain

/-- The order of files does not matter: if nothing is declared twice, permuted files with paths of
their own make up packages that differ in the order of what they list and in nothing else. -/
theorem ofFiles_reorders (metadata : Metadata) {files others : List SourceFile}
    (perm : files.Perm others)
    (distinct : files.Pairwise fun first second => first.path.same second.path = false)
    (once : ∀ error ∈ (Package.ofFiles metadata files).errors, error.isRedeclaration = false) :
    (Package.ofFiles metadata files).Reorders (Package.ofFiles metadata others) := by
  have quiet := quiet_of_once once
  have settled := ofFiles_isSettled metadata files
  have reordered := ofFiles_isSettled metadata others
  -- Both packages are resolved in one table, since they declare the same.
  rw [collect_eq_of_perm perm quiet, quiet] at reordered
  rw [quiet] at settled
  have free := settled.free once
  have entries : (declaredFuncs metadata.deps files).Perm (declaredFuncs metadata.deps others) :=
    perm.flatMap_right _
  have functions : (Package.ofFiles metadata files).functions.Perm
      (Package.ofFiles metadata others).functions := by
    rw [settled.functions, reordered.functions]
    exact functionsAlone_perm entries
  -- No key is taken, so the errors are those of the declarations by themselves.
  obtain ⟨plain, names⟩ := byName_perm (functions.filter fun function => !function.isMethod)
  refine ⟨fun faults => perm.flatMap_right faults, ?_, fun path start => ?_, plain, names⟩
  · have first := settled.errors
    have second := reordered.errors
    rw [free] at first
    rw [repeatsAmong_eq_nil_of_perm (claims_perm entries) free] at second
    exact first.trans (((errorsAlone_perm entries).append_left _).trans second.symm)
  · rw [Package.functionAt?, Package.functionAt?, settled.functions, reordered.functions]
    exact findPlace_eq_of_perm perm distinct path start

/-- A file with an alias and a method of a type that another file declares. -/
def firstOfTwo : SourceFile :=
  .ofText ⟨"/ws/p/a.go"⟩ "package p\n\ntype A = B\n\nfunc (b B) M() \x7b\x7d\n"

/-- A file that uses the alias of the first one, and a type that nothing declares. -/
def secondOfTwo : SourceFile :=
  .ofText ⟨"/ws/p/b.go"⟩ "package p\n\ntype B int\n\nfunc F(a A, u U) \x7b\x7d\n"

/-- The package of the two files. -/
def metadataOfTwo : Metadata :=
  ⟨"example.com/ws/p", "example.com/ws/p", "p", []⟩

/-- Two files that use each other's types make up the same package in either order. -/
theorem ofFiles_reorders_two :
    (Package.ofFiles metadataOfTwo [firstOfTwo, secondOfTwo]).errors =
        [⟨⟨"/ws/p/b.go"⟩, ⟨4, 14⟩, .undefined "U"⟩] ∧
      (Package.ofFiles metadataOfTwo [firstOfTwo, secondOfTwo]).Reorders
        (Package.ofFiles metadataOfTwo [secondOfTwo, firstOfTwo]) := by
  have errors : (Package.ofFiles metadataOfTwo [firstOfTwo, secondOfTwo]).errors =
      [⟨⟨"/ws/p/b.go"⟩, ⟨4, 14⟩, .undefined "U"⟩] := by
    decide +kernel
  have apart : firstOfTwo.path.same secondOfTwo.path = false := by decide +kernel
  refine ⟨errors, ofFiles_reorders metadataOfTwo (List.Perm.swap secondOfTwo firstOfTwo []) ?_ ?_⟩
  · simpa using apart
  · intro error member
    rw [errors] at member
    rw [List.mem_singleton.mp member]
    rfl

end Packages

end Scaffold.Go
