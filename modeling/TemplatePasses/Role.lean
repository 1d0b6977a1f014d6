/-
# The catalog of passes

A pass has a role, and there is a fixed set of roles: those that work on one
file alone (`FileRole`) and those that see the whole set of files
(`FileSetRole`). Each kind is listed in the order in which its passes run. A
role is known by its name, under which rules and messages refer to it.

Key definitions: `FileRole`, `FileSetRole`, `Named`, `PassPhase`, `isKnownPass`.
-/

namespace TemplatePasses

/-- What has a name under which rules refer to it. -/
class Named (α : Type) where
  name : α → String

/-- The phases of a run. -/
inductive PassPhase where
  /-- Needs the content of one file. -/
  | singleFile
  /-- Needs to know all templates. -/
  | crossTemplate
  /-- Escapes by context; may add templates. -/
  | autoescaping
  /-- Makes the trees simpler, always at the end. -/
  | simplification
deriving DecidableEq, Repr

def PassPhase.name : PassPhase → String
  | .singleFile => "single_file"
  | .crossTemplate => "cross_template"
  | .autoescaping => "autoescaping"
  | .simplification => "simplification"

/-! ### Passes over one file -/

/-- The roles of passes over one file. -/
inductive FileRole where
  | enforceExperimentalFeatures
  | resolveHeaderParamTypes
  | basicHtmlValidation
  | resolvePlugins
  | soyConformance
  | contentSecurityPolicyNonceInjection
  | insertMsgPlaceholderNodes
  | rewriteRemainders
  | rewriteGenderMsgs
  | calculateMsgSubstitutionInfo
  | checkNonEmptyMsgNodes
  | veRewrite
  | rewriteGlobals
  | xid
  | v1Expression
  | resolveNames
  | msgWithIdFunction
  | checkEscapingSanityFile
  | strictHtmlValidation
  | addDebugAttributes
  | checkDeclaredTypes
  | resolveExpressionTypes
  | veLogRewrite
  | veLogValidation
  | resolvePackageRelativeCssNames
  | checkGlobals
  | validateAliases
  | assertStrictAutoescaping
  | keyCommand
  | soyElement
deriving DecidableEq, Repr

namespace FileRole

/-- All roles in the order in which their passes run. -/
def all : List FileRole :=
  [.enforceExperimentalFeatures, .resolveHeaderParamTypes, .basicHtmlValidation, .resolvePlugins,
   .soyConformance, .contentSecurityPolicyNonceInjection, .insertMsgPlaceholderNodes,
   .rewriteRemainders, .rewriteGenderMsgs, .calculateMsgSubstitutionInfo, .checkNonEmptyMsgNodes,
   .veRewrite, .rewriteGlobals, .xid, .v1Expression, .resolveNames, .msgWithIdFunction,
   .checkEscapingSanityFile, .strictHtmlValidation, .addDebugAttributes, .checkDeclaredTypes,
   .resolveExpressionTypes, .veLogRewrite, .veLogValidation, .resolvePackageRelativeCssNames,
   .checkGlobals, .validateAliases, .assertStrictAutoescaping, .keyCommand, .soyElement]

def name : FileRole → String
  | .enforceExperimentalFeatures => "EnforceExperimentalFeatures"
  | .resolveHeaderParamTypes => "ResolveHeaderParamTypes"
  | .basicHtmlValidation => "BasicHtmlValidation"
  | .resolvePlugins => "ResolvePlugins"
  | .soyConformance => "SoyConformance"
  | .contentSecurityPolicyNonceInjection => "ContentSecurityPolicyNonceInjection"
  | .insertMsgPlaceholderNodes => "InsertMsgPlaceholderNodes"
  | .rewriteRemainders => "RewriteRemainders"
  | .rewriteGenderMsgs => "RewriteGenderMsgs"
  | .calculateMsgSubstitutionInfo => "CalculateMsgSubstitutionInfo"
  | .checkNonEmptyMsgNodes => "CheckNonEmptyMsgNodes"
  | .veRewrite => "VeRewrite"
  | .rewriteGlobals => "RewriteGlobals"
  | .xid => "Xid"
  | .v1Expression => "V1Expression"
  | .resolveNames => "ResolveNames"
  | .msgWithIdFunction => "MsgWithIdFunction"
  | .checkEscapingSanityFile => "CheckEscapingSanityFile"
  | .strictHtmlValidation => "StrictHtmlValidation"
  | .addDebugAttributes => "AddDebugAttributes"
  | .checkDeclaredTypes => "CheckDeclaredTypes"
  | .resolveExpressionTypes => "ResolveExpressionTypes"
  | .veLogRewrite => "VeLogRewrite"
  | .veLogValidation => "VeLogValidation"
  | .resolvePackageRelativeCssNames => "ResolvePackageRelativeCssNames"
  | .checkGlobals => "CheckGlobals"
  | .validateAliases => "ValidateAliases"
  | .assertStrictAutoescaping => "AssertStrictAutoescaping"
  | .keyCommand => "KeyCommand"
  | .soyElement => "SoyElement"

instance : Named FileRole := ⟨name⟩

def ofName? (name : String) : Option FileRole :=
  all.find? (·.name = name)

def phase (_ : FileRole) : PassPhase :=
  .singleFile

/-- Whether a pass of this role needs or enforces types. -/
def isTypeDependent : FileRole → Bool
  | .checkDeclaredTypes | .resolveExpressionTypes | .veLogRewrite | .veLogValidation => true
  | _ => false

end FileRole

/-! ### Passes over the whole set of files -/

/-- The roles of passes over the whole set of files. -/
inductive FileSetRole where
  | checkTemplateHeaderVars
  | checkTemplateCalls
  | checkTemplateVisibility
  | checkDelegates
  | strictDeps
  | autoescaper
  | checkBadContextualUsage
  | desugarHtmlNodes
  | optimization
  | combineConsecutiveRawTextNodes
deriving DecidableEq, Repr

namespace FileSetRole

/-- All roles in the order in which their passes run. -/
def all : List FileSetRole :=
  [.checkTemplateHeaderVars, .checkTemplateCalls, .checkTemplateVisibility, .checkDelegates,
   .strictDeps, .autoescaper, .checkBadContextualUsage, .desugarHtmlNodes, .optimization,
   .combineConsecutiveRawTextNodes]

def name : FileSetRole → String
  | .checkTemplateHeaderVars => "CheckTemplateHeaderVars"
  | .checkTemplateCalls => "CheckTemplateCalls"
  | .checkTemplateVisibility => "CheckTemplateVisibility"
  | .checkDelegates => "CheckDelegates"
  | .strictDeps => "StrictDeps"
  | .autoescaper => "Autoescaper"
  | .checkBadContextualUsage => "CheckBadContextualUsage"
  | .desugarHtmlNodes => "DesugarHtmlNodes"
  | .optimization => "Optimization"
  | .combineConsecutiveRawTextNodes => "CombineConsecutiveRawTextNodes"

instance : Named FileSetRole := ⟨name⟩

def ofName? (name : String) : Option FileSetRole :=
  all.find? (·.name = name)

def phase : FileSetRole → PassPhase
  | .checkTemplateHeaderVars | .checkTemplateCalls | .checkTemplateVisibility | .checkDelegates
  | .strictDeps => .crossTemplate
  | .autoescaper | .checkBadContextualUsage => .autoescaping
  | .desugarHtmlNodes | .optimization | .combineConsecutiveRawTextNodes => .simplification

/-- Whether a pass of this role needs or enforces types. -/
def isTypeDependent : FileSetRole → Bool
  | .checkTemplateCalls | .checkBadContextualUsage => true
  | _ => false

end FileSetRole

/-- Whether the name belongs to any role. -/
def isKnownPass (name : String) : Bool :=
  (FileRole.ofName? name).isSome || (FileSetRole.ofName? name).isSome

end TemplatePasses
