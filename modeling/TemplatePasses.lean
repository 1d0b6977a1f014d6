import TemplatePasses.NameMap
import TemplatePasses.Text.Shown
import TemplatePasses.Json.Literal
import TemplatePasses.Json.Layout
import TemplatePasses.Json.Value
import TemplatePasses.Json.Record
import TemplatePasses.Config.Form
import TemplatePasses.Role
import TemplatePasses.StopRules
import TemplatePasses.Log.Filter
import TemplatePasses.Log.Line
import TemplatePasses.Plan.Settings
import TemplatePasses.Plan.Report
import TemplatePasses.Config.Shown
import TemplatePasses.Template.Index
import TemplatePasses.Template.Simplify
import TemplatePasses.Pass.Build
import TemplatePasses.Pass.Script
import TemplatePasses.Cli.Command
import TemplatePasses.Main
import TemplatePasses.Proofs.Catalog
import TemplatePasses.Proofs.Halting
import TemplatePasses.Proofs.Planning
import TemplatePasses.Proofs.Building
import TemplatePasses.Proofs.FinalTree
import TemplatePasses.Proofs.Truncation
import TemplatePasses.Proofs.Diagnostics
import TemplatePasses.Proofs.Stages
import TemplatePasses.Proofs.RoundTrip
import TemplatePasses.Proofs.Offering
import TemplatePasses.Proofs.Untyped
import TemplatePasses.Proofs.Simplification
import TemplatePasses.Proofs.Rendering
import TemplatePasses.Proofs.Execution
import TemplatePasses.Proofs.WriteAlike
import TemplatePasses.Proofs.ConfigSteps
import TemplatePasses.Proofs.PlanLog
import TemplatePasses.Proofs.PhaseLevels
import TemplatePasses.Proofs.RuleOrder
import TemplatePasses.Proofs.Warnings
import TemplatePasses.Proofs.EarlyEnd
import TemplatePasses.Proofs.LogOptions
import TemplatePasses.Proofs.LastTemplate
import TemplatePasses.Proofs.RuleHistory
import TemplatePasses.Proofs.FreshIds
import TemplatePasses.Proofs.PrintedPlan
