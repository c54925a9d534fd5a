import Campaign.Main
import Campaign.Store
import Campaign.Proofs.Grammar
import Campaign.Proofs.Ingest
import Campaign.Proofs.Refinement
import Campaign.Proofs.Canonical
import Campaign.Proofs.Concatenation
import Campaign.Proofs.Overrun
import Campaign.Proofs.History
import Campaign.Proofs.Reorder
import Campaign.Proofs.Again
import Campaign.Proofs.Session
import Campaign.Proofs.Planted
import Campaign.Proofs.Breaks
import Campaign.Proofs.Attempts
import Campaign.Proofs.Insertion
import Campaign.Proofs.Layout
import Campaign.Proofs.LogName
import Campaign.Proofs.Format
import Campaign.Proofs.Sentinel
import Campaign.Proofs.Interruption
import Campaign.Proofs.Margins
import Campaign.Proofs.Catalogue
import Campaign.Proofs.Worklist
import Campaign.Proofs.Summary
import Campaign.Proofs.Utf8
import Campaign.Proofs.Entries
import Campaign.Proofs.Selection
import Campaign.Proofs.Filter
import Campaign.Proofs.Invocation
import Campaign.Proofs.ExitCode
import Campaign.Proofs.Merging
import Campaign.Proofs.Equality
import Campaign.Proofs.Export
