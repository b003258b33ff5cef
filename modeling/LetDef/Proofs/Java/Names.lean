import LetDef.Proofs.Java.Syntax
import LetDef.Proofs.Typing.Decision
import LetDef.Proofs.Typing.Native

/-!
# Names in Java

Every name in the class of a compiled program is a name that the program binds, as it is written
there, or the name of a builtin, and every type is a built-in one. Identifiers of the language may
have hyphens, which identifiers of Java may not: by its characters, a name of the program is read in
Java as one identifier exactly if there is no hyphen in it (`java_names_whole_iff_no_hyphen`). Which
words Java reserves is not looked at.
-/
namespace LetDef.Java

open Text (isLetter isDigit)

/-- A character of an identifier in Java. -/
def isWordPart (char : Char) : Bool :=
  isLetter char || isDigit char || char = '_'

/-- A character that an identifier in Java can begin with. -/
def isWordStart (char : Char) : Bool :=
  isLetter char || char = '_'

/-- The text is an identifier in Java. -/
def isIdentifier : List Char → Bool
  | [] => false
  | first :: rest => isWordStart first && rest.all isWordPart

/-- By its characters, Java reads the name as one identifier, whatever stands behind it that cannot
belong to it. -/
structure ReadsWhole (name : String) : Prop where
  /-- It is an identifier. -/
  identifier : isIdentifier name.toList
  /-- The identifier that Java reads is not longer and not shorter. -/
  longest : ∀ rest : List Char, rest.head?.all (!isWordPart ·) →
    (name.toList ++ rest).takeWhile isWordPart = name.toList

/-- The characters of identifiers of the language are those of identifiers in Java, and hyphens. -/
theorem isNamePart_eq (char : Char) :
    Lexeme.isNamePart char = (isWordPart char || char = '-') := rfl

/-- Identifiers begin alike. -/
theorem isNameStart_eq (char : Char) : Lexeme.isNameStart char = isWordStart char := rfl

/-- What an identifier in Java can begin with belongs to it. -/
theorem isWordPart_of_isWordStart {char : Char} (start : isWordStart char) : isWordPart char := by
  rw [isWordStart, Bool.or_eq_true] at start
  rw [isWordPart, Bool.or_eq_true, Bool.or_eq_true]
  exact start.imp_left .inl

/-- An identifier of the language is one in Java exactly if it has no hyphen. -/
theorem isIdentifier_iff {name : List Char} (word : TokenKind.identifier.Word name) :
    isIdentifier name ↔ '-' ∉ name := by
  cases word with
  | @identifier first rest start parts =>
    have other : first ≠ '-' := by
      rintro rfl
      contradiction
    rw [isIdentifier, ← isNameStart_eq, start, Bool.true_and, List.all_eq_true, List.mem_cons,
      not_or, and_iff_right other.symm]
    constructor
    · intro all hyphen
      exact absurd (all '-' hyphen) (by decide)
    · intro none char member
      have part := parts char member
      rw [isNamePart_eq, Bool.or_eq_true, decide_eq_true_eq] at part
      refine part.resolve_right ?_
      rintro rfl
      exact none member

/-- An identifier is read up to its end. -/
theorem readsWhole_of_isIdentifier {name : String} (identifier : isIdentifier name.toList) :
    ReadsWhole name := by
  refine ⟨identifier, fun rest stops => ?_⟩
  have parts : ∀ char ∈ name.toList, isWordPart char := by
    generalize name.toList = chars at identifier
    cases chars with
    | nil => exact List.forall_mem_nil _
    | cons first rest =>
      rw [isIdentifier, Bool.and_eq_true, List.all_eq_true] at identifier
      exact List.forall_mem_cons.mpr ⟨isWordPart_of_isWordStart identifier.1, identifier.2⟩
  rw [List.takeWhile_append_of_pos parts]
  cases rest with
  | nil => rw [List.takeWhile_nil, List.append_nil]
  | cons next later =>
    have stop : ¬ isWordPart next := by simpa using stops
    rw [List.takeWhile_cons_of_neg stop, List.append_nil]

/-- Java reads an identifier of the language as one identifier exactly if it has no hyphen. -/
theorem readsWhole_iff {name : String} (word : TokenKind.identifier.Word name.toList) :
    ReadsWhole name ↔ '-' ∉ name.toList :=
  ⟨fun reads => (isIdentifier_iff word).mp reads.identifier,
    fun none => readsWhole_of_isIdentifier ((isIdentifier_iff word).mpr none)⟩

mutual

/-- The names in an expression. -/
def Term.names : Term → List String
  | .literal _ => []
  | .group inner => inner.names
  | .binary _ left right => left.names ++ right.names
  | .variable name => [name]
  | .member receiver name => receiver.names ++ [name]
  | .call name arguments => name :: Term.namesAll arguments
  | .memberCall receiver name arguments => receiver.names ++ name :: Term.namesAll arguments

/-- The names in expressions. -/
def Term.namesAll : List Term → List String
  | [] => []
  | first :: rest => first.names ++ Term.namesAll rest

end

/-- The name of a variable and those in its first value. -/
def Binder.names (binder : Binder) (value : Option Term) : List String :=
  binder.name :: value.toList.flatMap Term.names

mutual

/-- The names in a statement. -/
def Command.names : Command → List String
  | .expression value | .result value => value.names
  | .declaration binder value => binder.names value
  | .assignment target value => target.names ++ value.names
  | .conditional condition accepted rejected =>
    condition.names ++ (Command.namesAll accepted ++ Command.namesAll rejected)
  | .iteration binder range body => binder.name :: (range.names ++ Command.namesAll body)
  | .repetition condition body => condition.names ++ Command.namesAll body

/-- The names in statements. -/
def Command.namesAll : List Command → List String
  | [] => []
  | first :: rest => first.names ++ Command.namesAll rest

/-- The types that are written in a statement. -/
def Command.types : Command → List String
  | .expression _ | .assignment _ _ | .result _ => []
  | .declaration binder _ => [binder.type]
  | .conditional _ accepted rejected => Command.typesAll accepted ++ Command.typesAll rejected
  | .iteration binder _ body => binder.type :: Command.typesAll body
  | .repetition _ body => Command.typesAll body

/-- The types that are written in statements. -/
def Command.typesAll : List Command → List String
  | [] => []
  | first :: rest => first.types ++ Command.typesAll rest

end

/-- The names in a method: its own, those of its parameters and those in its body. -/
def Routine.names (routine : Routine) : List String :=
  routine.name :: (routine.parameters.map Binder.name ++ Command.namesAll routine.body)

/-- The types that are written in a method. -/
def Routine.types (routine : Routine) : List String :=
  routine.returns :: (routine.parameters.map Binder.type ++ Command.typesAll routine.body)

/-- The names in a class: those of its fields, those in their first values and those in its
methods. -/
def Class.names (declared : Class) : List String :=
  declared.fields.flatMap (fun field => field.1.names field.2) ++
    declared.methods.flatMap Routine.names

/-- The types that are written in a class. -/
def Class.types (declared : Class) : List String :=
  declared.fields.map (fun field => field.1.type) ++ declared.methods.flatMap Routine.types

/-- The name is one of these, or that of a builtin in Java. -/
def Given (bound : String → Prop) (name : String) : Prop :=
  bound name ∨ ∃ builtin : Builtin, name = builtin.renderName

/-- The type is written as a built-in one. -/
def IsType (type : String) : Prop :=
  ∃ builtin ∈ Ty.builtins, type = builtin.renderName

/-- All names that are bound are written, all names that are written are given, and all types are
built in. -/
structure Supplied (bound : String → Prop) (binders names types : List String) : Prop where
  /-- The names that are bound are written. -/
  binders : ∀ name ∈ binders, name ∈ names
  /-- The names that are written are given. -/
  names : ∀ name ∈ names, Given bound name
  /-- The types are built in. -/
  types : ∀ type ∈ types, IsType type

/-- Where no name is bound and no type is written, the names have to be given. -/
theorem supplied_of_names {bound : String → Prop} {names : List String}
    (given : ∀ name ∈ names, Given bound name) : Supplied bound [] names [] :=
  ⟨List.forall_mem_nil _, given, List.forall_mem_nil _⟩

section Supplied

variable {bound : String → Prop} {binders others names more types further : List String}

/-- What is supplied one after the other is supplied together. -/
theorem Supplied.append (first : Supplied bound binders names types)
    (second : Supplied bound others more further) :
    Supplied bound (binders ++ others) (names ++ more) (types ++ further) where
  binders := List.forall_mem_append.mpr
    ⟨fun name listed => List.mem_append_left _ (first.binders name listed),
      fun name listed => List.mem_append_right _ (second.binders name listed)⟩
  names := List.forall_mem_append.mpr ⟨first.names, second.names⟩
  types := List.forall_mem_append.mpr ⟨first.types, second.types⟩

/-- Further names may be written where they are given. -/
theorem Supplied.behind (supplied : Supplied bound binders names types)
    (given : ∀ name ∈ more, Given bound name) : Supplied bound binders (more ++ names) types :=
  (supplied_of_names given).append supplied

/-- A variable that is declared is supplied if its name and its type are. -/
theorem supplied_binder {type name : String} (known : bound name) (builtin : IsType type) :
    Supplied bound [name] [name] [type] :=
  ⟨fun _ listed => listed, List.forall_mem_singleton.mpr (.inl known),
    List.forall_mem_singleton.mpr builtin⟩

/-- What is supplied for each of some constructs is supplied for all of them. -/
theorem supplied_flatMap {σ τ : Type} {sources : List σ} {trees : List τ}
    {bindersOf : σ → List String} {namesOf typesOf : τ → List String}
    (each : List.Forall₂ (fun source tree =>
      Supplied bound (bindersOf source) (namesOf tree) (typesOf tree)) sources trees) :
    Supplied bound (sources.flatMap bindersOf) (trees.flatMap namesOf)
      (trees.flatMap typesOf) := by
  induction each with
  | nil => exact supplied_of_names (List.forall_mem_nil _)
  | cons one _ ih => exact one.append ih

end Supplied

/-- The parameters of a method are declared with their names and with the types of these names. -/
theorem map_parameters {declared : List Parameter} {types : List Ty}
    (typed : Parameter.HaveTypes declared types) :
    (((types.map Ty.renderName).zipWith (fun type (parameter : Parameter) =>
        Binder.mk type parameter.name) declared).map Binder.name = declared.map Parameter.name) ∧
      ((types.map Ty.renderName).zipWith (fun type (parameter : Parameter) =>
        Binder.mk type parameter.name) declared).map Binder.type = types.map Ty.renderName := by
  induction typed with
  | nil => exact ⟨rfl, rfl⟩
  | cons _ _ ih => exact ⟨congrArg (List.cons _) ih.1, congrArg (List.cons _) ih.2⟩

end LetDef.Java

namespace LetDef

open Java (Given IsType Supplied)

variable {bound : String → Prop} {context behind : Context}

namespace Context.Native

mutual

/-- The names in a derived expression are given. -/
theorem given (native : context.Native bound) {source tree : Expr} {type : Ty}
    (derived : Elaborates context source tree type) :
    ∀ name ∈ (Java.term tree).names, Given bound name := by
  cases derived with
  | literal typed => exact List.forall_mem_nil _
  | group inner =>
    have within := given native inner
    exact within
  | binary first second typed =>
    exact List.forall_mem_append.mpr ⟨given native first, given native second⟩
  | «variable» found =>
    obtain ⟨entry, _⟩ := native.of_findVariable? found
    exact List.forall_mem_singleton.mpr (.inl entry.bound_renderName)
  | @call name sources trees types function arguments found suits =>
    refine List.forall_mem_cons.mpr ⟨?_, givenAll native arguments⟩
    rcases native.of_findFunction? found with ⟨builtin, rfl⟩ | ⟨known, _⟩
    · exact .inr ⟨builtin, rfl⟩
    · exact .inl known.bound_renderName

/-- The names in derived expressions are given. -/
theorem givenAll (native : context.Native bound) {sources trees : List Expr} {types : List Ty}
    (derived : ElaboratesAll context sources trees types) :
    ∀ name ∈ Java.Term.namesAll (Java.terms trees), Given bound name := by
  cases derived with
  | nil => exact List.forall_mem_nil _
  | cons first rest => exact List.forall_mem_append.mpr ⟨given native first, givenAll native rest⟩

end

/-- The name and the type of a declared variable, and the names in its first value, are supplied. -/
theorem supplied_initial (native : context.Native bound) {name : String}
    {written : Option String} {source tree : Option Expr} {type : Ty} (known : bound name)
    (derived : context.Initial written source tree type) :
    Supplied bound [name] (Java.Binder.names ⟨type.renderName, name⟩ (tree.map Java.term))
      [type.renderName] := by
  have declared : Supplied bound [name] [name] [type.renderName] :=
    Java.supplied_binder known ⟨type, native.initial_mem derived, rfl⟩
  have value : ∀ within ∈ (tree.map Java.term).toList.flatMap Java.Term.names,
      Given bound within := by
    cases derived with
    | inferred value | checked _ value _ =>
      rw [Option.map_some, Option.toList_some, List.flatMap_singleton]
      exact native.given value
    | empty named => exact List.forall_mem_nil _
  exact declared.append (Java.supplied_of_names value)

mutual

/-- The names and types in a derived statement are supplied. -/
theorem supplied {context behind : Context} (native : context.Native bound) {source tree : Stmt}
    (known : ∀ name ∈ source.binders, bound name) (derived : Checks context source tree behind) :
    Supplied bound source.binders (Java.command tree).names (Java.command tree).types := by
  cases derived with
  | expression value => exact Java.supplied_of_names (native.given value)
  | declaration initial free => exact native.supplied_initial (known _ List.mem_cons_self) initial
  | assignment target value suits =>
    exact Java.supplied_of_names
      (List.forall_mem_append.mpr ⟨native.given target, native.given value⟩)
  | conditional holds filled first second =>
    obtain ⟨knownYes, knownNo⟩ := List.forall_mem_append.mp known
    have yes := suppliedAll native.enter knownYes first
    have no := suppliedAll native.enter knownNo second
    exact (yes.append no).behind (native.given holds)
  | @iteration _ name _ _ _ _ _ runs filled body =>
    obtain ⟨knownName, knownBody⟩ := List.forall_mem_cons.mp known
    have counter : Supplied bound [name] [name] ["int"] :=
      Java.supplied_binder knownName ⟨.integer, by decide, rfl⟩
    have steps := suppliedAll (native.iteration knownName) knownBody body
    exact counter.append (steps.behind (native.given runs))
  | repetition holds body =>
    have steps := suppliedAll native.enter known body
    exact steps.behind (native.given holds)
  | result value inMethod suits => exact Java.supplied_of_names (native.given value)

/-- The names and types in derived statements are supplied. -/
theorem suppliedAll {context behind : Context} (native : context.Native bound)
    {sources trees : List Stmt} (known : ∀ name ∈ Stmt.bindersAll sources, bound name)
    (derived : ChecksAll context sources trees behind) :
    Supplied bound (Stmt.bindersAll sources) (Java.Command.namesAll (Java.commands trees))
      (Java.Command.typesAll (Java.commands trees)) := by
  cases derived with
  | nil => exact Java.supplied_of_names (List.forall_mem_nil _)
  | cons first rest =>
    obtain ⟨knownFirst, knownRest⟩ := List.forall_mem_append.mp known
    have one := supplied native knownFirst first
    exact one.append (suppliedAll (native.checks knownFirst first) knownRest rest)

end

/-- The names and the type in a derived field are supplied. -/
theorem supplied_field (native : context.Native bound) {source tree : Field}
    (known : bound source.name) (derived : ChecksField context source tree behind) :
    Supplied bound [source.name] ((Java.classField tree).1.names (Java.classField tree).2)
      [(Java.classField tree).1.type] ∧ behind.Native bound := by
  refine ⟨?_, native.checksField known derived⟩
  cases derived with
  | field initial free => exact native.supplied_initial known initial

/-- The names and types in a derived method are supplied. -/
theorem supplied_method (native : context.Native bound) {source tree : Method}
    (known : ∀ name ∈ source.binders, bound name)
    (derived : ChecksMethod context source tree behind) :
    Supplied bound source.binders (Java.routine tree).names (Java.routine tree).types ∧
      behind.Native bound := by
  cases derived with
  | @method function body inside stands empty undefined distinct checked =>
    obtain ⟨knownName, knownInside⟩ := List.forall_mem_cons.mp known
    obtain ⟨knownParameters, knownBody⟩ := List.forall_mem_append.mp knownInside
    have added : function.Native bound := stands.native knownName
    have statements := suppliedAll
      (native.inMethod stands knownName (List.forall_mem_map.mp knownParameters)) knownBody checked
    -- In Java the parameters come from the types in the slot, each with a name beside it.
    obtain ⟨names, types⟩ := Java.map_parameters stands.haveTypes
    have header : Supplied bound [source.name] [function.renderName]
        [function.returns.renderName] := by
      rw [stands.renderName_eq]
      exact Java.supplied_binder knownName ⟨_, added.returns, rfl⟩
    have parameters : Supplied bound (source.parameters.map Parameter.name)
        (source.parameters.map Parameter.name) (function.parameters.map Ty.renderName) :=
      ⟨fun _ listed => listed, fun name listed => .inl (knownParameters name listed),
        List.forall_mem_map.mpr fun type listed => ⟨type, added.parameters type listed, rfl⟩⟩
    have whole := header.append (parameters.append statements)
    rw [← types] at whole
    nth_rewrite 2 [← names] at whole
    exact ⟨whole, native.define added⟩

end Context.Native

/-- The names in the class of a derived program are those that the program binds and builtins, and
the types are built in. -/
theorem Program.Judged.supplied {source tree : Program} (judged : source.Judged tree) :
    Supplied (· ∈ source.binders) source.binders (Java.classOf tree).names
      (Java.classOf tree).types := by
  obtain ⟨loaded, final, fields, methods, _⟩ := judged
  have knownField : ∀ field ∈ source.fields, field.name ∈ source.binders :=
    fun field listed => List.mem_append_left _ (List.mem_map_of_mem listed)
  have knownMethod : ∀ method ∈ source.methods, ∀ name ∈ method.binders, name ∈ source.binders :=
    fun method listed name within =>
      List.mem_append_right _ (List.mem_flatMap_of_mem listed within)
  obtain ⟨eachField, native⟩ := fields.forall_native Context.native_start
    fun listed native derived => native.supplied_field (knownField _ listed) derived
  obtain ⟨eachMethod, _⟩ := methods.forall_native native
    fun listed native derived => native.supplied_method (knownMethod _ listed) derived
  have whole := (Java.supplied_flatMap eachField).append (Java.supplied_flatMap eachMethod)
  simp only [← List.map_eq_flatMap] at whole
  simp only [Java.classOf, Java.Class.names, Java.Class.types, List.flatMap_map, List.map_map]
  exact whole

/-- Identifiers of the language are no names of builtins in Java, which have a point. -/
theorem Builtin.ne_renderName {name : String} (word : TokenKind.identifier.Word name.toList)
    (builtin : Builtin) : name ≠ builtin.renderName := by
  rintro rfl
  cases builtin
  exact absurd (word.isNamePart '.' (by decide)) (by decide)

/-- A program whose text is compiled becomes a class in Java in which every name is that of a
builtin or one that the program binds, and every such name is in it. Java reads a name that the
program binds as one identifier exactly if there is no hyphen in it. So all names in the class are
read as one identifier, those of builtins apart, exactly if no name that the program binds has a
hyphen. -/
theorem java_names_whole_iff_no_hyphen {text : String} {compilation : Compilation}
    (compiled : Compilation.ofText text = .ok compilation) :
    ∃ source program, Program.ofText text = .ok source ∧
      Program.ofTextAnalyzed text = .ok program ∧
      compilation.java = (Java.classOf program).text ∧
      (∀ name ∈ (Java.classOf program).names, (∃ builtin : Builtin, name = builtin.renderName) ∨
        name ∈ source.binders ∧ (Java.ReadsWhole name ↔ '-' ∉ name.toList)) ∧
      ((∀ name ∈ (Java.classOf program).names, (∃ builtin : Builtin, name = builtin.renderName) ∨
        Java.ReadsWhole name) ↔ ∀ name ∈ source.binders, '-' ∉ name.toList) := by
  obtain ⟨program, analyzed, rfl⟩ := Compilation.ofText_eq_ok.mp compiled
  obtain ⟨source, read, judged⟩ := Program.exists_judged analyzed
  have words := Program.binders_ofText read
  have supplied := judged.supplied
  refine ⟨source, program, read, analyzed, (Java.text_classOf program).symm, ?_, ?_, ?_⟩
  · intro name written
    exact (supplied.names name written).symm.imp_right fun bound =>
      ⟨bound, Java.readsWhole_iff (words name bound)⟩
  · intro whole name bound
    rcases whole name (supplied.binders name bound) with ⟨builtin, same⟩ | reads
    · exact absurd same (builtin.ne_renderName (words name bound))
    · exact (Java.readsWhole_iff (words name bound)).mp reads
  · intro none name written
    exact (supplied.names name written).symm.imp_right fun bound =>
      (Java.readsWhole_iff (words name bound)).mpr (none name bound)

/-- A program without hyphens in its names. -/
def plainText : String :=
  "LET limit: Integer = 3; DEF add_one(x: Integer): Integer DO RETURN x + 1; END " ++
    "DEF main(): Integer DO print(limit); RETURN add_one(limit); END"

/-- In a program without hyphens in its names, every name in Java is a builtin or one identifier. -/
theorem java_names_whole_iff_no_hyphen_plain :
    ∃ source program, Program.ofText plainText = .ok source ∧
      Program.ofTextAnalyzed plainText = .ok program ∧
      source.binders = ["limit", "add_one", "x", "main"] ∧
      ∀ name ∈ (Java.classOf program).names, (∃ builtin : Builtin, name = builtin.renderName) ∨
        Java.ReadsWhole name := by
  have accepted : (Program.ofTextAnalyzed plainText).toOption.any fun _ => true := by
    decide +kernel
  have named : (Program.ofText plainText).toOption.any fun source =>
      source.binders = ["limit", "add_one", "x", "main"] := by decide +kernel
  obtain ⟨program, analyzed, _⟩ := exists_ok_of_any accepted
  obtain ⟨source, found, read, same, _, _, iff⟩ :=
    java_names_whole_iff_no_hyphen (Compilation.ofText_eq_ok.mpr ⟨program, analyzed, rfl⟩)
  rw [read] at named
  have binders : source.binders = ["limit", "add_one", "x", "main"] := of_decide_eq_true named
  refine ⟨source, found, read, same, binders, iff.mpr ?_⟩
  rw [binders]
  decide

/-- A program with a hyphen in a name. -/
def hyphenText : String :=
  "LET a-b: Integer = 1; DEF main(): Integer DO RETURN a-b; END"

/-- A name with a hyphen is written in Java as it is, and Java reads only its front as a name. -/
theorem java_names_whole_iff_no_hyphen_hyphen :
    ∃ program, Program.ofTextAnalyzed hyphenText = .ok program ∧
      "a-b" ∈ (Java.classOf program).names ∧
      (∀ builtin : Builtin, "a-b" ≠ builtin.renderName) ∧ ¬ Java.ReadsWhole "a-b" ∧
      "a-b;".toList.takeWhile Java.isWordPart = "a".toList := by
  have computed : (Program.ofTextAnalyzed hyphenText).toOption.any fun program =>
      "a-b" ∈ (Java.classOf program).names := by decide +kernel
  obtain ⟨program, analyzed, written⟩ := exists_ok_of_any computed
  refine ⟨program, analyzed, of_decide_eq_true written, fun builtin => ?_, fun reads => ?_, ?_⟩
  · cases builtin
    decide
  · exact absurd reads.identifier (by decide)
  · decide

end LetDef
