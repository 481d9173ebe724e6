import WayDisplays.Act.AdaptiveSync
import WayDisplays.Act.Convergence
import WayDisplays.Act.DeltaLifetime
import WayDisplays.Act.Discipline
import WayDisplays.Act.Fallback
import WayDisplays.Act.ModeConservation
import WayDisplays.Act.ModeLifetime
import WayDisplays.CfgFile.Edits
import WayDisplays.CfgFile.Fix
import WayDisplays.CfgFile.Restart
import WayDisplays.CfgFile.Validity
import WayDisplays.CfgFile.Write
import WayDisplays.Choice.FindMode
import WayDisplays.Choice.Listing
import WayDisplays.Choice.Maximum
import WayDisplays.Choice.Refresh
import WayDisplays.Client.Printing
import WayDisplays.Commands.Reproduce
import WayDisplays.Containers.ListCalls
import WayDisplays.Containers.MapCalls
import WayDisplays.Containers.SetCalls
import WayDisplays.Desire.Disabled
import WayDisplays.Desire.LidMonitor
import WayDisplays.Desire.Order
import WayDisplays.Desire.Positions
import WayDisplays.Ipc.Completion
import WayDisplays.Ipc.InProgress
import WayDisplays.Ipc.Interference
import WayDisplays.Ipc.Messages
import WayDisplays.Ipc.Routing
import WayDisplays.Log.Runs
import WayDisplays.Process.Lock
import WayDisplays.Process.Sockets
import WayDisplays.Request.Filter
import WayDisplays.Request.Order
import WayDisplays.Request.Override
import WayDisplays.Request.Repeat
import WayDisplays.Request.Toggle
import WayDisplays.Scale.Divisor
import WayDisplays.Yaml.CfgCodec
import WayDisplays.Yaml.HeadCodec
import WayDisplays.Yaml.LaptopPrefix
import WayDisplays.Yaml.Migration
import WayDisplays.Yaml.NodeTypes
import WayDisplays.Model.Sockets
import WayDisplays.Process.Sockets
