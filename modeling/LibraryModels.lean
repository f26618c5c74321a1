import LibraryModels.Main
import LibraryModels.ModelMap.Json
import LibraryModels.Proofs.Generator.Keep
import LibraryModels.Proofs.Row.Columns
import LibraryModels.Proofs.Generator.Cancel
import LibraryModels.Proofs.Generator.Resume
import LibraryModels.Proofs.Json.Source
import LibraryModels.Proofs.ModelMap.Json
import LibraryModels.Proofs.Codeql
import LibraryModels.Proofs.Generator.Progress
import LibraryModels.Proofs.ModelMap.History
import LibraryModels.Proofs.CommandLine
import LibraryModels.Proofs.DataExtension.Reading
import LibraryModels.Proofs.DataExtension.Layout
import LibraryModels.Proofs.Codeql.Outcome
import LibraryModels.Proofs.Codeql.Bar
import LibraryModels.Proofs.Row.Cells
import LibraryModels.Proofs.ModelMap.Reading
import LibraryModels.Proofs.Config
import LibraryModels.Proofs.Workspace
import LibraryModels.Proofs.Generator.Sinks
import LibraryModels.Proofs.Losses
import LibraryModels.Proofs.Yaml.Readers
import LibraryModels.Proofs.Config.Outcomes
import LibraryModels.Proofs.Results.Cells
import LibraryModels.Proofs.Results.Reading
import LibraryModels.Proofs.Json.Stable
import LibraryModels.Proofs.Results.Ordered
import LibraryModels.Proofs.Results.Json
import LibraryModels.Proofs.CommandLine.Settings
