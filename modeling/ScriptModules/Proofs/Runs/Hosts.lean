import ScriptModules.Proofs.Runs.Plain

/-!
# Host objects make plain runs

Properties of values are read and written, and native functions called, by plain runs: none of them calls back
into a script.
-/

namespace ScriptModules

namespace Run

variable {α : Type} {writes : Bool}

/-! ## Properties -/

private theorem Plain.mainView (id : LoaderId) : Plain writes (mainView id) := by
  unfold Run.mainView
  refine .bind (.read _) fun loader => ?_
  split
  · exact .newHost rfl
  · exact .pure _

private theorem Plain.moduleProperty (cache : CacheId) (id : Path) (key : String) :
    Plain writes (moduleProperty cache id key) := by
  unfold Run.moduleProperty
  refine .bind .heap fun heap => ?_
  dsimp only
  cases (heap.cache cache).find? id with
  | none => exact .pure _
  | some record =>
    dsimp only
    split
    · exact .pure _
    · exact .pure _
    · exact .pure _
    · exact .pure _
    · exact .pure _
    · split
      · split
        · exact .newHost rfl
        · exact .pure _
      · exact .pure _
    · exact .bind (.mapM (fun child => .newHost rfl) _) fun views => .newArray views
    · exact .pure _

private theorem Plain.hostProperty (id : HostId) (key : String) : Plain writes (hostProperty id key) := by
  unfold Run.hostProperty
  refine .bind .heap fun heap => ?_
  cases heap.host id with
  | native name action => exact .pure _
  | embedded name respond => exact .pure _
  | function definition closure properties =>
    refine .bind .heap fun heap => ?_
    split
    · exact .pure _
    · split <;> exact .pure _
  | require loader dir parent =>
    dsimp only
    split
    · exact .newHost rfl
    · exact .bind (.read _) fun loader => .newHost rfl
    · exact .mainView _
    · exact .pure _
    · exact .pure _
  | module cache record => exact .moduleProperty _ _ _
  | cacheView cache =>
    refine .bind .heap fun heap => ?_
    split
    · exact .newHost rfl
    · exact .pure _

theorem Plain.property (target : Value) (key : String) : Plain writes (property target key) := by
  unfold Run.property
  cases target with
  | object id => exact .bind .heap fun heap => .pure _
  | array id => exact .bind .heap fun heap => .pure _
  | string text => exact .pure _
  | host id => exact .hostProperty _ _
  | undefined | null => exact .bind .heap fun heap => .failType _
  | boolean _ | number _ => exact .pure _

private theorem Plain.setHostProperty (id : HostId) (key : String) (value : Value) :
    Plain writes (setHostProperty id key value) := by
  unfold Run.setHostProperty
  refine .bind .heap fun heap => ?_
  cases heap.host id with
  | function definition closure properties => exact .changeHeap fun _ => .of_arrays rfl rfl
  | module cache record =>
    dsimp only
    split
    · refine .bind (.assignExports _ _ _) fun found => ?_
      split
      · exact .pure _
      · exact .failType _
    · exact .failType _
  | _ => exact .failType _

theorem Plain.setProperty (target : Value) (key : String) (value : Value) :
    Plain writes (setProperty target key value) := by
  unfold Run.setProperty
  cases target with
  | object id => exact .changeHeap fun _ => .of_arrays rfl rfl
  | array id =>
    dsimp only
    split
    · exact .tryHeap fun heap later h => Heap.sameFrame_writeItem h
    · exact .failType _
  | host id => exact .setHostProperty _ _ _
  | undefined | null => exact .bind .heap fun heap => .failType _
  | boolean _ | number _ | string _ => exact .pure _

/-! ## Native functions -/

theorem Plain.throwNamed (name message : String) : Plain writes (throwNamed name message : Run α) := by
  unfold Run.throwNamed
  exact .bind (.make fun heap => (Heap.sameButData_newError _ _ _).sameFrame) fun value => .fail _

private theorem Plain.textArgument (arg? : Option Value) : Plain writes (textArgument arg?) := by
  unfold Run.textArgument
  split
  · exact .pure _
  · exact .bind .heap fun heap => .failType _
  · exact .failType _

theorem Plain.specifierArgument (args : List Value) : Plain writes (specifierArgument args) := by
  unfold Run.specifierArgument
  split
  · exact .pure _
  · exact .bind .heap fun heap => .failType _
  · exact .failType _

private theorem Plain.readJson (args : List Value) : Plain writes (readJson args) := by
  unfold Run.readJson
  refine .bind .heap fun heap => ?_
  dsimp only
  split
  · exact .make fun heap => (Heap.sameButData_ofJson _ heap).sameFrame
  · exact .throwNamed _ _

private theorem Plain.writeJson (args : List Value) : Plain writes (writeJson args) := by
  unfold Run.writeJson
  refine .bind .heap fun heap => ?_
  dsimp only
  split
  · exact .pure _
  · split <;> exact .pure _

private theorem Plain.pathCall (call : PathCall) (site : SiteId) (args : List Value) :
    Plain writes (pathCall call site args) := by
  unfold Run.pathCall
  cases call with
  | join => exact .bind (.mapM (fun arg => .textArgument _) _) fun texts => .pure _
  | resolve =>
    exact .bind (.mapM (fun arg => .textArgument _) _) fun texts => .bind (.read _) fun site => .pure _
  | baseName =>
    refine .bind (.textArgument _) fun text => ?_
    split <;> exact .pure _
  | _ => exact .bind (.textArgument _) fun text => .pure _

private theorem Plain.fileArgument (site : SiteId) (args : List Value) : Plain writes (fileArgument site args) := by
  unfold Run.fileArgument
  exact .bind (.textArgument _) fun text => .bind (.read _) fun site => .pure _

private theorem Plain.writeFile (site : SiteId) (path : Path) (text : String) :
    Plain true (writeFile site path text) := by
  unfold Run.writeFile
  exact .bind (.read _) fun files => .bind (.ofExcept _) fun files => .changeSite _ _ rfl

private theorem Plain.fileCall (call : FileCall) (site : SiteId) (args : List Value) :
    Plain (Native.file call site).writes (fileCall call site args) := by
  unfold Run.fileCall
  cases call with
  | read =>
    exact .bind (.fileArgument _ _) fun path => .bind (.read _) fun files =>
      .bind (.ofExcept _) fun text => .pure _
  | write =>
    refine .bind (.fileArgument _ _) fun path => ?_
    split
    · exact .failType _
    · exact .bind .heap fun heap => .bind (.writeFile _ _ _) fun _ => .pure _
  | exists_ =>
    dsimp only
    split
    · exact .bind (.read _) fun files => .bind (.fileArgument _ _) fun path => .pure _
    · exact .pure _
  | list =>
    exact .bind (.fileArgument _ _) fun path => .bind (.read _) fun files =>
      .bind (.ofExcept _) fun names => .newArray _
  | status =>
    refine .bind (.fileArgument _ _) fun path => .bind (.read _) fun files => ?_
    have hstatus : Plain false (do Run.newObject [
        ("isFile", ← Run.newHost (.native "isFile" (.constant (files.isFile path)))),
        ("isDirectory", ← Run.newHost (.native "isDirectory" (.constant (files.isDirectory path))))]) :=
      .bind (.newHost rfl) fun isFile => .bind (.newHost rfl) fun isDirectory => .newObject _
    dsimp only
    split
    · exact .bind (.fail _) fun _ => hstatus
    · exact hstatus

/-- The search for a module runs no script. -/
theorem Plain.resolve (loader : LoaderId) (specifier : String) (dir : Path) :
    Plain writes (resolve loader specifier dir) := by
  unfold Run.resolve Run.scene Run.search
  refine .bind (.bind (.read _) fun loader => .bind (.read _) fun site => .pure _) fun scene => ?_
  refine .bind (.bind (.forM (fun failure => .note rfl) _) fun _ => .pure _) fun result => ?_
  exact .ofExcept result

/-- Native functions do not change sites, but for the one that writes files. -/
theorem Plain.native (action : Native) (args : List Value) : Plain action.writes (native action args) := by
  unfold Run.native
  cases action with
  | print stream =>
    unfold Run.print
    exact .bind .heap fun heap => .bind (.note rfl) fun _ => .pure _
  | writeJson => exact .writeJson _
  | readJson => exact .readJson _
  | makeError name =>
    unfold Run.makeError
    exact .bind .heap fun heap => .make fun heap => (Heap.sameButData_newError _ _ _).sameFrame
  | file call site => exact .fileCall _ _ _
  | path call site => exact .pathCall _ _ _
  | constant answer => exact .pure _
  | resolve loader dir =>
    exact .bind (.specifierArgument _) fun specifier => .bind (.resolve _ _ _) fun target => .pure _

theorem Plain.reply (answer : Reply) : Plain writes (reply answer) := by
  unfold Run.reply
  cases answer with
  | value value => exact .pure _
  | list items => exact .newArray _
  | text pieces => exact .bind .heap fun heap => .pure _
  | thrown value => exact .fail _

private theorem Plain.newNative (name : String) {action : Native} (h : action.writes = false) :
    Plain writes (newNative name action) := by
  unfold Run.newNative
  exact .bind (.newHost (by rw [Host.isPassive, h]; rfl)) fun value => .pure _

theorem Plain.globals : Plain writes globals := by
  unfold Run.globals
  refine .bind (.newNative _ rfl) fun log => .bind (.newNative _ rfl) fun info => ?_
  refine .bind (.newNative _ rfl) fun warn => .bind (.newNative _ rfl) fun error => ?_
  refine .bind (.newObject _) fun console => ?_
  refine .bind (.newNative _ rfl) fun stringify => .bind (.newNative _ rfl) fun parse => ?_
  refine .bind (.newObject _) fun json => ?_
  exact .bind (.mapM (fun name => .newNative _ rfl) _) fun errors => .pure _

end Run
end ScriptModules
