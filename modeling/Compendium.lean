import Compendium.Main
import Compendium.Proofs.Cache.Refinement
import Compendium.Proofs.ContentTree.Trie
import Compendium.Proofs.Document.Degradation
import Compendium.Proofs.Document.Schema
import Compendium.Proofs.Loading.Candidates
import Compendium.Proofs.Loading.Documents
import Compendium.Proofs.Loading.FlatFiles
import Compendium.Proofs.Loading.Spellings
import Compendium.Proofs.Loading.Warming
import Compendium.Proofs.Render.BlockTooltips
import Compendium.Proofs.Render.DepthLimit
import Compendium.Proofs.Render.DocumentNumbers
import Compendium.Proofs.Render.FlatLinks
import Compendium.Proofs.Render.Footnotes
import Compendium.Proofs.Render.ListMarkers
import Compendium.Proofs.Render.NestedLinks
import Compendium.Proofs.Render.PlainText
import Compendium.Proofs.Render.Refusals
import Compendium.Proofs.Render.ScriptData
import Compendium.Proofs.Render.Styles
import Compendium.Proofs.Render.Unnumbered
import Compendium.Proofs.Render.Views
import Compendium.Proofs.Render.Writer
import Compendium.Proofs.Site.Links
import Compendium.Proofs.Site.Pages
import Compendium.Proofs.Source.Listing
import Compendium.Proofs.Text.DisplayNames
import Compendium.Proofs.Text.Glob
import Compendium.Proofs.View.Controls
