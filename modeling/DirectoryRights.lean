import DirectoryRights.Text.LowerCase
import DirectoryRights.Text.Numeral
import DirectoryRights.Text.Column
import DirectoryRights.Catalog
import DirectoryRights.Membership
import DirectoryRights.Expiry
import DirectoryRights.Tier
import DirectoryRights.Grant.ExternalGroup
import DirectoryRights.AccessControl
import DirectoryRights.Catalog.Standard
import DirectoryRights.Catalog.Document
import DirectoryRights.Settings.File
import DirectoryRights.World.Build
import DirectoryRights.Report
import DirectoryRights.Folder
import DirectoryRights.Main
import DirectoryRights.Proofs.FirstMatch
import DirectoryRights.Proofs.Ruling
import DirectoryRights.Proofs.Cutting
import DirectoryRights.Proofs.Line
import DirectoryRights.Proofs.Rereading
import DirectoryRights.Proofs.Catalogs
import DirectoryRights.Proofs.DecisionMemos
import DirectoryRights.Proofs.Reach
import DirectoryRights.Proofs.CacheTransparency
import DirectoryRights.Proofs.Loosening
import DirectoryRights.Proofs.Monotonicity
import DirectoryRights.Proofs.Corruption
import DirectoryRights.Proofs.Anonymous
import DirectoryRights.Proofs.Homeless
import DirectoryRights.Proofs.Denials
import DirectoryRights.Proofs.Isolation
import DirectoryRights.Proofs.Reordering
import DirectoryRights.Proofs.PassingOn
import DirectoryRights.Proofs.SubDomains
import DirectoryRights.Proofs.Bundles
import DirectoryRights.Proofs.Legible
import DirectoryRights.Proofs.Spelling
import DirectoryRights.Proofs.Buckets
import DirectoryRights.Proofs.SlotMap
import DirectoryRights.Proofs.Interleaving
import DirectoryRights.Proofs.Staleness
import DirectoryRights.Proofs.Rewriting
import DirectoryRights.Proofs.Atomicity
import DirectoryRights.Proofs.Distances
import DirectoryRights.Proofs.Walk
import DirectoryRights.Proofs.Repetition
import DirectoryRights.Proofs.Heirs
import DirectoryRights.Proofs.OpenBorder
import DirectoryRights.Proofs.WellFormed
import DirectoryRights.Proofs.Building
import DirectoryRights.Proofs.Eviction
import DirectoryRights.Proofs.Renaming
import DirectoryRights.Proofs.Following
import DirectoryRights.Proofs.GrantMaps
import DirectoryRights.Proofs.Alterations
import DirectoryRights.Proofs.Disguise
import DirectoryRights.Proofs.Retargeting
import DirectoryRights.Proofs.Loading
import DirectoryRights.Proofs.Deadlines
import DirectoryRights.Proofs.Locality
import DirectoryRights.Proofs.Everyone
import DirectoryRights.Proofs.Addresses
import DirectoryRights.Proofs.Containment
