import LetDef.Proofs.Java.Names
import LetDef.Proofs.Typing.Decision
import LetDef.Proofs.Typing.Native

/-!
# Local variables in Java

Java rejects the declaration of a local variable where a parameter or a local variable of that name
is in scope. In the language each block has a frame of its own, in which the names of the frames
around it may be declared again. A compiled method declares the names in Java that it declares in
the language, where all that is in its frames is in scope; so Java accepts its declarations exactly
if none has the name of a variable of a frame around it (`routine_distinct_iff_not_around`).
-/
namespace LetDef

namespace Java

/-- A place in a method where a name is declared. -/
structure Site where
  /-- The name. -/
  name : String
  /-- The names that are in scope there, latest first. -/
  scope : List String
  deriving DecidableEq

/-- The names that are in scope behind a statement because of it. -/
def Command.adds : Command → List String
  | .declaration binder _ => [binder.name]
  | _ => []

mutual

/-- Where a statement declares names. -/
def Command.sites (scope : List String) : Command → List Site
  | .declaration binder _ => [⟨binder.name, scope⟩]
  | .conditional _ accepted rejected =>
    Command.sitesAll scope accepted ++ Command.sitesAll scope rejected
  | .iteration binder _ body =>
    ⟨binder.name, scope⟩ :: Command.sitesAll (binder.name :: scope) body
  | .repetition _ body => Command.sitesAll scope body
  | .expression _ | .assignment _ _ | .result _ => []

/-- Where statements declare names. -/
def Command.sitesAll (scope : List String) : List Command → List Site
  | [] => []
  | first :: rest => first.sites scope ++ Command.sitesAll (first.adds ++ scope) rest

end

/-- Where parameters are declared. -/
def Binder.sites (scope : List String) : List Binder → List Site
  | [] => []
  | first :: rest => ⟨first.name, scope⟩ :: Binder.sites (first.name :: scope) rest

/-- Where a method declares names: its parameters, then what is in its body. -/
def Routine.sites (routine : Routine) : List Site :=
  Binder.sites [] routine.parameters ++
    Command.sitesAll (routine.parameters.map Binder.name).reverse routine.body

/-- No name is declared where it is in scope. -/
def Routine.Distinct (routine : Routine) : Prop :=
  ∀ site ∈ routine.sites, site.name ∉ site.scope

end Java

/-- A place in a method where a name is declared. -/
structure Site where
  /-- The name. -/
  name : String
  /-- The names that the innermost frame has there, latest first. -/
  frame : List String
  /-- The names that the frames around it have, from the inside to the outside. -/
  around : List String
  deriving DecidableEq

/-- The place as it is in Java, where frames make no difference. -/
def Site.inJava (site : Site) : Java.Site :=
  ⟨site.name, site.frame ++ site.around⟩

/-- The names that are in the innermost frame behind a statement because of it. -/
def Stmt.adds : Stmt → List String
  | .declaration declared => [declared.name]
  | _ => []

mutual

/-- Where a statement declares names. -/
def Stmt.sites (frame around : List String) : Stmt → List Site
  | .declaration declared => [⟨declared.name, frame, around⟩]
  | .conditional _ accepted rejected =>
    Stmt.sitesAll [] (frame ++ around) accepted ++ Stmt.sitesAll [] (frame ++ around) rejected
  | .iteration name _ body =>
    ⟨name, [], frame ++ around⟩ :: Stmt.sitesAll [name] (frame ++ around) body
  | .repetition _ body => Stmt.sitesAll [] (frame ++ around) body
  | .expression _ | .assignment _ _ | .result _ => []

/-- Where statements declare names. -/
def Stmt.sitesAll (frame around : List String) : List Stmt → List Site
  | [] => []
  | first :: rest => first.sites frame around ++ Stmt.sitesAll (first.adds ++ frame) around rest

end

/-- Where parameters are declared. -/
def Parameter.sites (frame : List String) : List Parameter → List Site
  | [] => []
  | first :: rest => ⟨first.name, frame, []⟩ :: Parameter.sites (first.name :: frame) rest

/-- Where a method declares names: its parameters, then what is in its body in the same frame. -/
def Method.sites (method : Method) : List Site :=
  Parameter.sites [] method.parameters ++
    Stmt.sitesAll (method.parameters.map Parameter.name).reverse [] method.body

/-- The innermost frame has variables of these names. -/
def Context.Holds (context : Context) (names : List String) : Prop :=
  ∀ name ∈ names, ∃ held ∈ context.inner, held.name = name

namespace Context

variable {context behind : Context} {names : List String} {name : String}

/-- A name that is free is none of those that the innermost frame holds. -/
theorem Holds.not_mem (holds : context.Holds names) (free : context.Free name) : name ∉ names := by
  intro listed
  obtain ⟨held, within, same⟩ := holds name listed
  exact free held within same

/-- A new frame holds no name. -/
theorem holds_enter : context.enter.Holds [] :=
  List.forall_mem_nil _

/-- A frame holds the name of a variable that is added. -/
theorem Holds.bind (holds : context.Holds names) (type : Ty) :
    (context.bind (.named name type)).Holds (name :: names) := by
  refine List.forall_mem_cons.mpr ⟨⟨_, List.mem_cons_self, rfl⟩, fun other listed => ?_⟩
  obtain ⟨held, within, same⟩ := holds other listed
  exact ⟨held, List.mem_cons_of_mem _ within, same⟩

/-- Behind a derived statement the frame holds what the statement adds. -/
theorem Holds.checks (holds : context.Holds names) {source tree : Stmt}
    (derived : Checks context source tree behind) : behind.Holds (tree.adds ++ names) := by
  cases derived with
  | declaration initial free => exact holds.bind _
  | _ => exact holds

/-- A frame holds the names of parameters that are added. -/
theorem Holds.bindAll {parameters : List Parameter} {types : List Ty} {context : Context}
    (typed : Parameter.HaveTypes parameters types) (holds : context.Holds names) :
    (context.bindAll (parameters.zipWith (fun parameter type => .named parameter.name type)
      types)).Holds ((parameters.map Parameter.name).reverse ++ names) := by
  induction typed generalizing context names with
  | nil => exact holds
  | @cons parameter parameters type types _ _ ih =>
    rw [List.map_cons, List.reverse_cons, List.append_assoc]
    exact ih (holds.bind type)

end Context

/-- These places are the ones in Java, and at none of them the innermost frame has the name that is
declared. -/
structure Sited (sites : List Site) (inJava : List Java.Site) : Prop where
  /-- The places are those in Java. -/
  same : inJava = sites.map Site.inJava
  /-- No name is declared twice in one frame. -/
  fresh : ∀ site ∈ sites, site.name ∉ site.frame

/-- There are no places. -/
theorem sited_nil : Sited [] [] :=
  ⟨rfl, List.forall_mem_nil _⟩

/-- A name that the innermost frame has not may be declared. -/
theorem sited_singleton {name : String} {frame around : List String} (free : name ∉ frame) :
    Sited [⟨name, frame, around⟩] [⟨name, frame ++ around⟩] :=
  ⟨rfl, List.forall_mem_singleton.mpr free⟩

/-- Places that come after others. -/
theorem Sited.append {sites others : List Site} {inJava more : List Java.Site}
    (first : Sited sites inJava) (second : Sited others more) :
    Sited (sites ++ others) (inJava ++ more) := by
  refine ⟨?_, List.forall_mem_append.mpr ⟨first.fresh, second.fresh⟩⟩
  rw [List.map_append, first.same, second.same]

/-- A derived statement adds the same names in Java. -/
theorem Java.adds_command {context behind : Context} {source tree : Stmt}
    (derived : Checks context source tree behind) : (Java.command tree).adds = tree.adds := by
  cases derived <;> rfl

/-- Where parameters of different names are declared, also in Java. -/
theorem sited_parameters {parameters : List Parameter} {binders : List Java.Binder}
    (names : binders.map Java.Binder.name = parameters.map Parameter.name) {frame : List String}
    (distinct : (parameters.map Parameter.name ++ frame).Nodup) :
    Sited (Parameter.sites frame parameters) (Java.Binder.sites frame binders) := by
  induction parameters generalizing binders frame with
  | nil =>
    obtain rfl := List.map_eq_nil_iff.mp names
    exact sited_nil
  | cons first rest ih =>
    obtain ⟨binder, others, rfl, name, same⟩ := List.map_eq_cons_iff.mp names
    have free : first.name ∉ frame := fun listed =>
      (List.nodup_cons.mp distinct).1 (List.mem_append_right _ listed)
    have one : Sited [⟨first.name, frame, []⟩] [⟨first.name, frame⟩] := by
      have site : Sited [⟨first.name, frame, []⟩] [⟨first.name, frame ++ []⟩] :=
        sited_singleton free
      rwa [List.append_nil] at site
    have later := ih same (List.perm_middle.nodup_iff.mpr distinct)
    rw [Java.Binder.sites, name]
    exact one.append later

namespace Context.Holds

mutual

/-- Where a derived statement declares names. -/
theorem sited {context behind : Context} {frame : List String} (holds : context.Holds frame)
    (around : List String) {source tree : Stmt} (derived : Checks context source tree behind) :
    Sited (tree.sites frame around) ((Java.command tree).sites (frame ++ around)) := by
  cases derived with
  | expression | assignment | result => exact sited_nil
  | declaration initial free => exact sited_singleton (holds.not_mem free)
  | conditional condition filled first second =>
    -- A block begins with an empty frame, and all names that the frame has are around it.
    have yes := sitedAll holds_enter (frame ++ around) first
    have no := sitedAll holds_enter (frame ++ around) second
    exact yes.append no
  | @iteration _ name _ _ _ _ _ runs filled body =>
    have counter : Sited [⟨name, [], frame ++ around⟩] [⟨name, frame ++ around⟩] :=
      sited_singleton List.not_mem_nil
    have steps := sitedAll (holds_enter.bind .integer) (frame ++ around) body
    exact counter.append steps
  | repetition condition body =>
    have steps := sitedAll holds_enter (frame ++ around) body
    exact steps

/-- Where derived statements declare names. -/
theorem sitedAll {context behind : Context} {frame : List String} (holds : context.Holds frame)
    (around : List String) {sources trees : List Stmt}
    (derived : ChecksAll context sources trees behind) :
    Sited (Stmt.sitesAll frame around trees)
      (Java.Command.sitesAll (frame ++ around) (Java.commands trees)) := by
  cases derived with
  | nil => exact sited_nil
  | @cons _ _ _ _ tree _ trees first rest =>
    have later := sitedAll (holds.checks first) around rest
    rw [List.append_assoc, ← Java.adds_command first] at later
    have one := sited holds around first
    rw [Stmt.sitesAll, ← Java.adds_command first]
    exact one.append later

end

end Context.Holds

/-- Where a derived method declares names. -/
theorem ChecksMethod.sited {context behind : Context} {source tree : Method}
    (derived : ChecksMethod context source tree behind) :
    Sited tree.sites (Java.routine tree).sites := by
  cases derived with
  | @method function body inside stands empty undefined distinct checked =>
    have typed := stands.haveTypes
    obtain ⟨names, _⟩ := Java.map_parameters typed
    have apart : (source.parameters.map Parameter.name ++ []).Nodup := by
      rwa [List.append_nil]
    have parameters := sited_parameters names apart
    have holds : (((context.define function).enter.bindAll
        (source.parameterVariables function.parameters)).returning function.returns).Holds
          ((source.parameters.map Parameter.name).reverse ++ []) :=
      Context.holds_enter.bindAll typed
    have statements := holds.sitedAll [] checked
    rw [List.append_nil, List.append_nil] at statements
    nth_rewrite 2 [← names] at statements
    exact parameters.append statements

/-- Each of the constructs that are derived in turn is derived. -/
theorem InTurn.exists_of_mem {τ : Type} {checks : Context → τ → τ → Context → Prop}
    {context behind : Context} {sources trees : List τ}
    (derived : InTurn checks context sources trees behind) {tree : τ} (listed : tree ∈ trees) :
    ∃ before source after, checks before source tree after := by
  induction derived with
  | nil => exact absurd listed List.not_mem_nil
  | cons first _ ih =>
    rcases List.mem_cons.mp listed with rfl | later
    · exact ⟨_, _, _, first⟩
    · exact ih later

/-- A program whose text is compiled becomes a class in Java whose methods are those of the program.
Each method declares its parameters, its local variables and the variables of its loops in Java with
the names that they have in the program, where the names of all frames of the method are in scope.
No name is declared twice in one frame; so no name is declared where it is in scope in Java exactly
if none is declared where a frame around it has that name. -/
theorem routine_distinct_iff_not_around {text : String} {compilation : Compilation}
    (compiled : Compilation.ofText text = .ok compilation) :
    ∃ program, Program.ofTextAnalyzed text = .ok program ∧
      compilation.java = (Java.classOf program).text ∧
      (Java.classOf program).methods = program.methods.map Java.routine ∧
      ∀ method ∈ program.methods, (Java.routine method).sites = method.sites.map Site.inJava ∧
        (∀ site ∈ method.sites, site.name ∉ site.frame) ∧
        ((Java.routine method).Distinct ↔ ∀ site ∈ method.sites, site.name ∉ site.around) := by
  obtain ⟨program, analyzed, rfl⟩ := Compilation.ofText_eq_ok.mp compiled
  obtain ⟨source, _, loaded, final, _, methods, _⟩ := Program.exists_judged analyzed
  refine ⟨program, analyzed, (Java.text_classOf program).symm, rfl, fun method listed => ?_⟩
  obtain ⟨_, _, _, derived⟩ := methods.exists_of_mem listed
  have sited := derived.sited
  refine ⟨sited.same, sited.fresh, ?_⟩
  rw [Java.Routine.Distinct, sited.same, List.forall_mem_map]
  refine forall₂_congr fun site within => ?_
  rw [Site.inJava, List.mem_append, not_or, and_iff_right (sited.fresh site within)]

/-- A program with a field, in which blocks one after the other declare a variable of its name. -/
def successiveText : String :=
  "LET x: Integer = 3; DEF main(): Integer DO IF x < 5 DO LET x: Integer = 1; RETURN x; END " ++
    "LET x: Integer = 2; RETURN x; END"

/-- Blocks one after the other may declare a name again, which may also be the name of a field. -/
theorem routine_distinct_iff_not_around_blocks :
    ∃ program, Program.ofTextAnalyzed successiveText = .ok program ∧
      program.methods.flatMap Method.sites = [⟨"x", [], []⟩, ⟨"x", [], []⟩] ∧
      ∀ method ∈ program.methods, (Java.routine method).Distinct := by
  have computed : (Program.ofTextAnalyzed successiveText).toOption.any fun program =>
      program.methods.flatMap Method.sites = [⟨"x", [], []⟩, ⟨"x", [], []⟩] := by decide +kernel
  obtain ⟨program, analyzed, listed⟩ := exists_ok_of_any computed
  have sites : program.methods.flatMap Method.sites = [⟨"x", [], []⟩, ⟨"x", [], []⟩] :=
    of_decide_eq_true listed
  obtain ⟨found, same, _, _, each⟩ :=
    routine_distinct_iff_not_around (Compilation.ofText_eq_ok.mpr ⟨program, analyzed, rfl⟩)
  obtain rfl : program = found := Except.ok.inj (analyzed.symm.trans same)
  have apart : ∀ site ∈ program.methods.flatMap Method.sites, site.name ∉ site.around := by
    rw [sites]
    decide
  refine ⟨program, analyzed, sites, fun method among => (each method among).2.2.mpr ?_⟩
  exact fun site within => apart site (List.mem_flatMap_of_mem among within)

/-- A program in which a block declares a name that the frame around it has. -/
def nestedText : String :=
  "DEF main(): Integer DO LET x: Integer = 1; IF TRUE DO LET x: Integer = 2; RETURN x; END " ++
    "RETURN x; END"

/-- A block may declare a name that the frame around it has, and so does the method in Java. -/
theorem routine_distinct_iff_not_around_inner :
    ∃ program, Program.ofTextAnalyzed nestedText = .ok program ∧
      ∃ method ∈ program.methods, (Java.routine method).sites = [⟨"x", []⟩, ⟨"x", ["x"]⟩] ∧
        ¬ (Java.routine method).Distinct := by
  have computed : (Program.ofTextAnalyzed nestedText).toOption.any fun program =>
      program.methods.any fun method =>
        (Java.routine method).sites = [⟨"x", []⟩, ⟨"x", ["x"]⟩] := by decide +kernel
  obtain ⟨program, analyzed, passed⟩ := exists_ok_of_any computed
  obtain ⟨method, among, listed⟩ := List.any_eq_true.mp passed
  have sites : (Java.routine method).sites = [⟨"x", []⟩, ⟨"x", ["x"]⟩] := of_decide_eq_true listed
  refine ⟨program, analyzed, method, among, sites, fun distinct => ?_⟩
  rw [Java.Routine.Distinct, sites] at distinct
  exact distinct ⟨"x", ["x"]⟩ (by simp) List.mem_cons_self

end LetDef
