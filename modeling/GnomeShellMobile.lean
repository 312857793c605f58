import GnomeShellMobile.Akima.Spline
import GnomeShellMobile.AltTab.Selection
import GnomeShellMobile.AppDisplay.Again
import GnomeShellMobile.AppFavorites.Undo
import GnomeShellMobile.AppFavorites.Writes
import GnomeShellMobile.AutoBacklight.Perceived
import GnomeShellMobile.AutoBacklight.SmoothUpdate
import GnomeShellMobile.AutoBacklight.Synced
import GnomeShellMobile.Batch.Released
import GnomeShellMobile.BreakManager.Credited
import GnomeShellMobile.BreakManager.TimeSpan
import GnomeShellMobile.BrightnessManager.Ratios
import GnomeShellMobile.CallsMonitoring.InCall
import GnomeShellMobile.Dash.Redisplay
import GnomeShellMobile.DeferredWork.Reached
import GnomeShellMobile.Dnd.DragEnd
import GnomeShellMobile.ExtensionManager.Rebase
import GnomeShellMobile.Gdm.Earned
import GnomeShellMobile.Gdm.MessagesShown
import GnomeShellMobile.GrabHelper.Grab
import GnomeShellMobile.IconGrid.Arrival
import GnomeShellMobile.IconGrid.Places
import GnomeShellMobile.InjectionManager.Cleared
import GnomeShellMobile.InputMethod.Copies
import GnomeShellMobile.InputSourceManager.MostRecent
import GnomeShellMobile.JsParse.Unsafe
import GnomeShellMobile.Keyboard.DeleteKey
import GnomeShellMobile.Keyboard.EmojiPages
import GnomeShellMobile.Keyboard.HitTest
import GnomeShellMobile.Keyboard.Latched
import GnomeShellMobile.Keyboard.Shown
import GnomeShellMobile.KeyboardManager.Applied
import GnomeShellMobile.MessageList.GroupExpander
import GnomeShellMobile.MessageList.OneExpanded
import GnomeShellMobile.MessageList.UrgentFirst
import GnomeShellMobile.MessageTray.Disabled
import GnomeShellMobile.MessageTray.Order
import GnomeShellMobile.ModalStack.Restored
import GnomeShellMobile.NotificationDaemon.Ids
import GnomeShellMobile.NotificationDaemon.Stored
import GnomeShellMobile.ObjectManager.Exports
import GnomeShellMobile.OskCompletion.Completion
import GnomeShellMobile.PerfLog.Dump
import GnomeShellMobile.PerfLog.Replay
import GnomeShellMobile.PowerManager.Cancellation
import GnomeShellMobile.PowerManager.Cursor
import GnomeShellMobile.PowerManager.Suspend
import GnomeShellMobile.PowerManager.UserActiveWatch
import GnomeShellMobile.PowerManager.WayOut
import GnomeShellMobile.QuickSettings.Allocated
import GnomeShellMobile.Screencast.Registered
import GnomeShellMobile.Search.Current
import GnomeShellMobile.Search.GridColumns
import GnomeShellMobile.SensorDaemon.ProximityMonitoring
import GnomeShellMobile.ShellApp.Credited
import GnomeShellMobile.ShellApp.RunningState
import GnomeShellMobile.ShellApp.Windows
import GnomeShellMobile.ShellAppCache.Updates
import GnomeShellMobile.ShellAppSystem.StartupWmClass
import GnomeShellMobile.ShellSecureTextBuffer.Content
import GnomeShellMobile.SignalTracker.Released
import GnomeShellMobile.StAdjustment.Range
import GnomeShellMobile.SwipeTracker.Ending
import GnomeShellMobile.TimeLimitsManager.Frozen
import GnomeShellMobile.TimeLimitsManager.HistoryFile
import GnomeShellMobile.TimeLimitsManager.ReachedAt
import GnomeShellMobile.TimeLimitsManager.Timers
import GnomeShellMobile.Util.Highlighter
import GnomeShellMobile.Util.History
import GnomeShellMobile.Util.LowerBound
import GnomeShellMobile.Util.VersionCompare
import GnomeShellMobile.WindowTracker.Membership
import GnomeShellMobile.WorkspaceLayout.Fits
